import SchemaTypes.Proofs.Schema.Contents
import SchemaTypes.Proofs.Schema.Keys
import Mathlib

/-!
# Values as contents

A value that was read repeats no key and nests no deeper than the reader may go. Such a value is a
content that reads as itself, and as a source it is the same in both ways to read a source: as a
value at hand, and as what a text says.

## Main definitions

* `Json.Value.Held`: a value that a reader can give
* `Json.Tree.ofValue`: a node that writes a value

## Main results

* `Json.Content.held_of_value`, `Json.Content.value_ofValue`: the values that are read
* `Schema.Forms.bare_ofValue`: a value as a source
-/

namespace SchemaTypes

open Json

namespace Json

/-! ### Values that a reader gives -/

namespace Value

/-- A value that a reader can give, where `room` more levels may be entered. -/
structure Held (room : Nat) (value : Value) : Prop where
  distinct : value.DistinctKeys
  depth : value.depth ≤ room

variable {room : Nat}

theorem distinctItems_iff {items : List Value} :
    DistinctItems items ↔ ∀ item ∈ items, item.DistinctKeys := by
  induction items with
  | nil => simp [DistinctItems]
  | cons item rest ih => rw [DistinctItems, ih, List.forall_mem_cons]

theorem depthItems_le_iff {items : List Value} :
    depthItems items ≤ room ↔ ∀ item ∈ items, item.depth ≤ room := by
  induction items with
  | nil => simp [depthItems]
  | cons item rest ih => rw [depthItems, Nat.max_le, ih, List.forall_mem_cons]

theorem depthEntries_le_iff {entries : List (String × Value)} :
    depthEntries entries ≤ room ↔ ∀ entry ∈ entries, entry.2.depth ≤ room := by
  induction entries with
  | nil => simp [depthEntries]
  | cons entry rest ih => rw [depthEntries, Nat.max_le, ih, List.forall_mem_cons]

theorem held_array {items : List Value} :
    (array items).Held room ↔ room ≠ 0 ∧ ∀ item ∈ items, item.Held (room - 1) := by
  constructor
  · rintro ⟨hdistinct, hdepth⟩
    rw [DistinctKeys, distinctItems_iff] at hdistinct
    rw [depth] at hdepth
    have hitems := depthItems_le_iff.mp (Nat.le_sub_one_of_lt hdepth)
    exact ⟨by omega, fun item hitem => ⟨hdistinct item hitem, hitems item hitem⟩⟩
  · rintro ⟨hroom, hitems⟩
    constructor
    · rw [DistinctKeys, distinctItems_iff]
      exact fun item hitem => (hitems item hitem).distinct
    · have := depthItems_le_iff.mpr fun item hitem => (hitems item hitem).depth
      rw [depth]
      omega

theorem held_object {entries : List (String × Value)} :
    (object entries).Held room ↔
      room ≠ 0 ∧ (entries.map Prod.fst).Nodup ∧ ∀ entry ∈ entries, entry.2.Held (room - 1) := by
  constructor
  · rintro ⟨hdistinct, hdepth⟩
    rw [DistinctKeys, distinctEntries_iff] at hdistinct
    rw [depth] at hdepth
    have hentries := depthEntries_le_iff.mp (Nat.le_sub_one_of_lt hdepth)
    exact ⟨by omega, hdistinct.1, fun entry hentry =>
      ⟨hdistinct.2 entry hentry, hentries entry hentry⟩⟩
  · rintro ⟨hroom, hkeys, hentries⟩
    constructor
    · rw [DistinctKeys, distinctEntries_iff]
      exact ⟨hkeys, fun entry hentry => (hentries entry hentry).distinct⟩
    · have := depthEntries_le_iff.mpr fun entry hentry => (hentries entry hentry).depth
      rw [depth]
      omega

end Value

namespace Content

theorem values_eq (room : Nat) (items : List Content) :
    values room items = items.mapM (value room) := by
  induction items with
  | nil => rfl
  | cons item rest ih =>
    rw [values, List.mapM_cons, ih]
    rfl

theorem valueEntries_eq (room : Nat) (entries : List (Except Unit String × Content)) :
    valueEntries room entries = entries.mapM (keyed (value room)) := by
  induction entries with
  | nil => rfl
  | cons entry rest ih =>
    obtain ⟨key, item⟩ := entry
    rw [valueEntries, List.mapM_cons, ih, keyed]
    cases key with
    | error => rfl
    | ok name => cases item.value room <;> rfl

theorem value_object (room : Nat) (entries : List (Except Unit String × Content)) :
    (object entries).value room =
      enter room (((valueEntries (room - 1) entries).map Entries.collect).map .object) := by
  rw [value]
  cases valueEntries (room - 1) entries <;> rfl

mutual

/-- A value that is read is one that a reader can give. -/
theorem held_of_value (room : Nat) {value : Value} :
    ∀ {content : Content}, content.value room = .ok value → value.Held room
  | .plain reading, h => by
    obtain ⟨scalar, -, rfl⟩ := map_eq_ok.mp h
    cases scalar <;> exact ⟨trivial, Nat.zero_le room⟩
  | .text reading, h => by
    obtain ⟨read, -, rfl⟩ := map_eq_ok.mp h
    exact ⟨trivial, Nat.zero_le room⟩
  | .list items, h => by
    obtain ⟨hroom, h⟩ := enter_eq_ok.mp h
    obtain ⟨values, hvalues, rfl⟩ := map_eq_ok.mp h
    exact Value.held_array.mpr ⟨hroom, held_of_values (room - 1) hvalues⟩
  | .object entries, h => by
    obtain ⟨hroom, h⟩ := enter_eq_ok.mp h
    obtain ⟨values, hvalues, rfl⟩ := map_eq_ok.mp h
    exact Value.held_object.mpr ⟨hroom, Entries.nodup_collect values,
      Entries.forall_collect (held_of_valueEntries (room - 1) hvalues)⟩

theorem held_of_values (room : Nat) {values : List Value} :
    ∀ {items : List Content}, Content.values room items = .ok values →
      ∀ value ∈ values, value.Held room
  | [], h => by
    obtain rfl := Except.ok.inj h
    exact List.forall_mem_nil _
  | item :: rest, h => by
    obtain ⟨first, hfirst, h⟩ := bind_eq_ok.mp h
    obtain ⟨others, hothers, h⟩ := bind_eq_ok.mp h
    obtain rfl := Except.ok.inj h
    exact List.forall_mem_cons.mpr ⟨held_of_value room hfirst, held_of_values room hothers⟩

theorem held_of_valueEntries (room : Nat) {values : List (String × Value)} :
    ∀ {entries : List (Except Unit String × Content)},
      Content.valueEntries room entries = .ok values → ∀ entry ∈ values, entry.2.Held room
  | [], h => by
    obtain rfl := Except.ok.inj h
    exact List.forall_mem_nil _
  | (key, item) :: rest, h => by
    obtain ⟨name, -, h⟩ := bind_eq_ok.mp h
    obtain ⟨first, hfirst, h⟩ := bind_eq_ok.mp h
    obtain ⟨others, hothers, h⟩ := bind_eq_ok.mp h
    obtain rfl := Except.ok.inj h
    exact List.forall_mem_cons.mpr
      ⟨held_of_value room hfirst, held_of_valueEntries room hothers⟩

end

end Content

/-! ### Nodes that write a value -/

namespace Tree

mutual

/-- A node that writes a value. -/
def ofValue : Value → Tree
  | .null => .plain (.ok .null) (.ok ()) 0 0
  | .boolean value => .plain (.ok (.boolean value)) (.ok ()) 0 0
  | .number value => .plain (.ok (.number value)) (.ok ()) 0 0
  | .text value => .text (.ok value) (.ok ()) 0 0
  | .array items => .list 0 (ofItems items) (.closed 0)
  | .object entries => .object 0 (ofEntries entries) (.closed 0)

/-- Nodes that write the items of a list. -/
def ofItems : List Value → List Tree
  | [] => []
  | item :: rest => ofValue item :: ofItems rest

/-- Keys and nodes that write the entries of an object. -/
def ofEntries : List (String × Value) → List (Key × Tree)
  | [] => []
  | (key, value) :: rest => (⟨.ok key, .ok (), ⟨.nothing, 0⟩⟩, ofValue value) :: ofEntries rest

end

mutual

theorem writes_ofValue : ∀ value : Value, (ofValue value).Writes value
  | .null | .boolean _ | .number _ | .text _ => ⟨rfl, rfl⟩
  | .array items => by
    obtain ⟨hwritten, hcheck⟩ := written_ofItems items
    exact ⟨by rw [ofValue, written, hwritten]; rfl, by rw [ofValue, check, hcheck]; rfl⟩
  | .object entries => by
    obtain ⟨hwritten, hcheck⟩ := written_ofEntries entries
    exact ⟨by rw [ofValue, written, hwritten]; rfl, by rw [ofValue, check, hcheck]; rfl⟩

theorem written_ofItems : ∀ items : List Value,
    writtenItems (ofItems items) = some items ∧ checkItems (ofItems items) = .ok ()
  | [] => ⟨rfl, rfl⟩
  | item :: rest => by
    obtain ⟨hwritten, hcheck⟩ := writes_ofValue item
    obtain ⟨hrest, hrestCheck⟩ := written_ofItems rest
    exact ⟨by rw [ofItems, writtenItems, hwritten, hrest]; rfl,
      by rw [ofItems, checkItems, hcheck, hrestCheck]; rfl⟩

theorem written_ofEntries : ∀ entries : List (String × Value),
    writtenEntries (ofEntries entries) = some entries ∧ checkEntries (ofEntries entries) = .ok ()
  | [] => ⟨rfl, rfl⟩
  | (key, value) :: rest => by
    obtain ⟨hwritten, hcheck⟩ := writes_ofValue value
    obtain ⟨hrest, hrestCheck⟩ := written_ofEntries rest
    exact ⟨by rw [ofEntries, writtenEntries, hwritten, hrest]; rfl,
      by rw [ofEntries, checkEntries, hcheck, hrestCheck]; rfl⟩

end

end Tree

/-- A reading of a text and a reading of a value that agree to any depth. -/
theorem Agrees.bare_eq {α : Type} {deep : Prop} {outcome : Except Fault α} {other : Except Cause α}
    (h : Agrees deep outcome other) (hdeep : ¬ deep) : bare outcome = bare other := by
  cases h with
  | same read => rfl
  | refused cause hcause => rfl
  | tooDeep h => exact absurd h hdeep

/-- **A value that a reader can give reads as itself.** -/
theorem Content.value_ofValue {room : Nat} {value : Value} (h : value.Held room) :
    (ofValue value).value room = .ok value := by
  have hwrites := Tree.writes_ofValue value
  have hagrees := (Tree.agrees_value room hwrites.1).bare_eq (Nat.not_lt.mpr h.depth)
  rw [← Tree.content_of_written hwrites.1, ← Tree.bare_value room hwrites.2, hagrees,
    Value.collected_eq_self h.distinct]
  rfl

end Json

namespace Schema

/-- **A value as a source** is what it says as a source. -/
theorem Forms.bare_ofValue {room : Nat} {value : Value} (h : value.Held room) :
    (ofValue value).bare = ofContent room (.ofValue value) := by
  have hwrites := Tree.writes_ofValue value
  have hagree := Part.agree_ofTree room hwrites
  rw [ofWritten_eq_ofValue h.distinct] at hagree
  have hdeep := Nat.not_lt.mpr h.depth
  rw [← Tree.content_of_written hwrites.1, ← Part.bare_ofTree room hwrites.2, bare, bare,
    hagree.isNull, hagree.value.bare_eq hdeep, hagree.text.bare_eq hdeep,
    hagree.truth.bare_eq hdeep, hagree.values.bare_eq hdeep, hagree.additional.bare_eq hdeep,
    hagree.schema.bare_eq hdeep, hagree.schemas.bare_eq hdeep, hagree.schemaMap.bare_eq hdeep]

theorem Clauses.ofValue_eq_ok {room : Nat} {value : Value} (h : value.Held room)
    {clauses : Clauses} :
    ofValue value = .ok clauses ↔
      (Forms.ofContent room (.ofValue value)).schema = .ok clauses := by
  rw [← Forms.bare_ofValue h]
  exact bare_eq_ok.symm

/-- An object stands for the entries that are schema objects. -/
theorem Additional.ofValue_object (entries : List (String × Value)) :
    ofValue (.object entries) = .entries (entries.filterMap fun entry =>
      (Clauses.ofValue entry.2).toOption.map (Prod.mk entry.1)) := by
  rw [ofValue]
  congr 2
  funext entry
  cases Clauses.ofValue entry.2 <;> rfl

end Schema

end SchemaTypes
