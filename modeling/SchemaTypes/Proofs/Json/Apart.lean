import SchemaTypes.Proofs.Json.Fields
import Mathlib

/-!
# Lists and readings that differ in one place

Two texts that differ in one place are read in the same way up to that place and behind it. What is
read differs in one place as well, and this goes on through lists, through collected entries and
through records.

## Main definitions

* `Json.Follows`: one reading gives something related wherever another one gives something
* `Json.OneApart`: two lists differ in one place at most
* `Json.SameKey`, `Json.AtKey`: two entries have the same key

## Main results

* `Json.Follows.mapM`, `Json.Follows.record`: readings of lists and of records
* `Json.OneApart.collect`: collected entries
-/

namespace SchemaTypes

namespace Json

/-! ### Readings -/

section Follows

variable {α β γ δ : Type} {r : α → β → Prop} {outcome : Except Unit α} {other : Except Unit β}

/-- Where a reading gives something, the other one gives something that is related to it. -/
def Follows (r : α → β → Prop) (outcome : Except Unit α) (other : Except Unit β) : Prop :=
  ∀ read, outcome = .ok read → ∃ result, other = .ok result ∧ r read result

namespace Follows

theorem of_eq {outcome other : Except Unit α} (h : outcome = other) :
    Follows Eq outcome other :=
  fun read hread => ⟨read, h ▸ hread, rfl⟩

theorem mono {s : α → β → Prop} (h : Follows r outcome other) (himp : ∀ x y, r x y → s x y) :
    Follows s outcome other := by
  intro read hread
  obtain ⟨result, hresult, hr⟩ := h read hread
  exact ⟨result, hresult, himp read result hr⟩

theorem bind {s : γ → δ → Prop} {next : α → Except Unit γ} {more : β → Except Unit δ}
    (h : Follows r outcome other) (hnext : ∀ x y, r x y → Follows s (next x) (more y)) :
    Follows s (outcome >>= next) (other >>= more) := by
  intro read hread
  obtain ⟨first, hfirst, hread⟩ := bind_eq_ok.mp hread
  obtain ⟨result, rfl, hr⟩ := h first hfirst
  exact hnext first result hr read hread

theorem map {s : γ → δ → Prop} {f : α → γ} {g : β → δ} (h : Follows r outcome other)
    (hmap : ∀ x y, r x y → s (f x) (g y)) : Follows s (outcome.map f) (other.map g) := by
  intro read hread
  obtain ⟨first, hfirst, rfl⟩ := map_eq_ok.mp hread
  obtain ⟨result, rfl, hr⟩ := h first hfirst
  exact ⟨g result, rfl, hmap first result hr⟩

theorem enter (h : Follows r outcome other) (room : Nat) :
    Follows r (Json.enter room outcome) (Json.enter room other) := by
  intro read hread
  obtain ⟨hroom, hread⟩ := enter_eq_ok.mp hread
  obtain ⟨result, hresult, hr⟩ := h read hread
  exact ⟨result, enter_eq_ok.mpr ⟨hroom, hresult⟩, hr⟩

end Follows

end Follows

/-! ### Lists -/

section Lists

variable {α β κ : Type} {r : α → α → Prop}

/-- Two lists differ in the item behind the first `index` ones. -/
def ApartAt (index : Nat) (r : α → α → Prop) (items others : List α) : Prop :=
  ∃ before x y after, before.length = index ∧ items = before ++ x :: after ∧
    others = before ++ y :: after ∧ r x y

/-- Two lists differ in one place at most. -/
inductive OneApart (r : α → α → Prop) : List α → List α → Prop
  | same (items : List α) : OneApart r items items
  | apart (before : List α) {x y : α} (after : List α) (h : r x y) :
      OneApart r (before ++ x :: after) (before ++ y :: after)

theorem ApartAt.oneApart {index : Nat} {items others : List α} (h : ApartAt index r items others) :
    OneApart r items others := by
  obtain ⟨before, x, y, after, -, rfl, rfl, h⟩ := h
  exact .apart before after h

/-- Two entries have the same key. -/
structure SameKey (r : α → β → Prop) (entry : String × α) (other : String × β) : Prop where
  key : entry.1 = other.1
  item : r entry.2 other.2

/-- Two entries have a certain key. -/
structure AtKey (key : String) (r : α → α → Prop) (entry changed : String × α) : Prop where
  left : entry.1 = key
  right : changed.1 = key
  item : r entry.2 changed.2

namespace OneApart

variable {items others : List α}

theorem mono {s : α → α → Prop} (h : OneApart r items others) (himp : ∀ x y, r x y → s x y) :
    OneApart s items others := by
  cases h with
  | same => exact .same _
  | apart before after h => exact .apart before after (himp _ _ h)

theorem eq (h : OneApart r items others) (himp : ∀ x y, r x y → x = y) : items = others := by
  cases h with
  | same => rfl
  | apart before after h => rw [himp _ _ h]

theorem cons (x : α) (h : OneApart r items others) : OneApart r (x :: items) (x :: others) := by
  cases h with
  | same => exact .same _
  | apart before after h => exact .apart (x :: before) after h

theorem map {s : β → β → Prop} {f : α → β} (h : OneApart r items others)
    (hmap : ∀ x y, r x y → s (f x) (f y)) : OneApart s (items.map f) (others.map f) := by
  cases h with
  | same => exact .same _
  | apart before after h =>
    rw [List.map_append, List.map_append]
    exact .apart (before.map f) (after.map f) (hmap _ _ h)

/-- An item that differs is kept in both lists or in neither. -/
theorem filterMap {s : β → β → Prop} {f : α → Option β} (h : OneApart r items others)
    (hmap : ∀ x y, r x y → Option.Rel s (f x) (f y)) :
    OneApart s (items.filterMap f) (others.filterMap f) := by
  cases h with
  | same => exact .same _
  | @apart before x y after h =>
    rw [List.filterMap_append, List.filterMap_append, List.filterMap_cons, List.filterMap_cons]
    have hxy := hmap x y h
    generalize f x = first at hxy ⊢
    generalize f y = second at hxy ⊢
    cases hxy with
    | none => exact .same _
    | some h => exact .apart (before.filterMap f) (after.filterMap f) h

section Collect

variable {key : String} {entries changed : List (String × α)}

theorem put (h : OneApart (AtKey key r) entries changed) (name : String) (value : α) :
    OneApart (AtKey key r) (Entries.put name value entries) (Entries.put name value changed) := by
  cases h with
  | same => exact .same _
  | @apart before x y after h =>
    induction before with
    | nil =>
      obtain ⟨k, x⟩ := x
      obtain ⟨k', y⟩ := y
      obtain ⟨rfl, hkey, h⟩ := h
      obtain rfl : k' = k := hkey
      rw [List.nil_append, List.nil_append, Entries.put, Entries.put]
      split
      · exact .same _
      · exact .apart [] (Entries.put name value after) ⟨rfl, rfl, h⟩
    | cons first before ih =>
      rw [List.cons_append, List.cons_append, Entries.put, Entries.put]
      split
      · exact .apart ((first.1, value) :: before) after h
      · exact ih.cons first

theorem put_apart {x y : α} (h : r x y) (entries : List (String × α)) :
    OneApart (AtKey key r) (Entries.put key x entries) (Entries.put key y entries) := by
  induction entries with
  | nil => exact .apart [] [] ⟨rfl, rfl, h⟩
  | cons first rest ih =>
    rw [Entries.put, Entries.put]
    split
    · next hkey => exact .apart [] rest ⟨hkey, hkey, h⟩
    · exact ih.cons first

/-- **Collected entries** of one key differ, if any do. -/
theorem collect (h : OneApart (AtKey key r) entries changed) :
    OneApart (AtKey key r) (Entries.collect entries) (Entries.collect changed) := by
  cases h with
  | same => exact .same _
  | @apart before x y after h =>
    obtain ⟨k, x⟩ := x
    obtain ⟨k', y⟩ := y
    obtain ⟨rfl, hkey, h⟩ := h
    obtain rfl : k' = k := hkey
    rw [Entries.collect, Entries.collect, List.foldl_append, List.foldl_append, List.foldl_cons,
      List.foldl_cons]
    -- behind the entry that differs, both lists take the same entries
    have hfold : ∀ (after : List (String × α)) {first second : List (String × α)},
        OneApart (AtKey k' r) first second →
        OneApart (AtKey k' r)
          (after.foldl (fun entries pair => Entries.put pair.1 pair.2 entries) first)
          (after.foldl (fun entries pair => Entries.put pair.1 pair.2 entries) second) := by
      intro after
      induction after with
      | nil => exact fun h => h
      | cons pair rest ih => exact fun h => ih (h.put pair.1 pair.2)
    exact hfold after (put_apart h _)

end Collect

end OneApart

/-- **A list is read** item by item, so what is read differs where the lists do. -/
theorem Follows.mapM {read : κ → Except Unit α} {before after : List κ} {part other : κ}
    (h : Follows r (read part) (read other)) :
    Follows (ApartAt before.length r) ((before ++ part :: after).mapM read)
      ((before ++ other :: after).mapM read) := by
  induction before with
  | nil =>
    rw [List.nil_append, List.nil_append, List.mapM_cons, List.mapM_cons]
    refine h.bind fun x y hxy => (Follows.of_eq rfl).bind fun xs ys hsame => ?_
    obtain rfl := hsame
    intro all hall
    obtain rfl := Except.ok.inj hall
    exact ⟨y :: xs, rfl, [], x, y, xs, rfl, rfl, rfl, hxy⟩
  | cons first before ih =>
    rw [List.cons_append, List.cons_append, List.mapM_cons, List.mapM_cons]
    refine (Follows.of_eq rfl).bind fun x y hsame => ih.bind fun xs ys hxys => ?_
    obtain rfl := hsame
    obtain ⟨b, z, w, a, hlength, rfl, rfl, hzw⟩ := hxys
    intro all hall
    obtain rfl := Except.ok.inj hall
    exact ⟨x :: b ++ w :: a, rfl, x :: b, z, w, a, congrArg (· + 1) hlength, rfl, rfl, hzw⟩

end Lists

/-! ### Records -/

section Records

variable {φ σ : Type} {field : φ} {part other : Content}

/-- Two lists of fields differ in what one field holds. -/
def FieldApart (field : φ) (part other : Content) (fields others : List (φ × Content)) : Prop :=
  ∃ before after, fields = before ++ (field, part) :: after ∧
    others = before ++ (field, other) :: after

/-- An entry that names a field is one of the fields, wherever it stands. -/
theorem follows_fieldsOf {ofKey? : String → Option φ} {name : String}
    {before after : List (Except Unit String × Content)} (h : ofKey? name = some field) :
    Follows (FieldApart field part other)
      (Content.fieldsOf ofKey? (before ++ (.ok name, part) :: after))
      (Content.fieldsOf ofKey? (before ++ (.ok name, other) :: after)) := by
  have hnamed : ∀ content, Content.named ofKey? (.ok name, content) = some (field, content) := by
    intro content
    rw [Content.named]
    show (ofKey? name).map _ = _
    rw [h]
    rfl
  intro fields hfields
  rw [Content.fieldsOf] at hfields ⊢
  simp only [List.forall_mem_append, List.forall_mem_cons] at hfields ⊢
  split at hfields
  · next hkeys =>
    obtain rfl := Except.ok.inj hfields
    rw [if_pos hkeys]
    refine ⟨_, rfl, before.filterMap (Content.named ofKey?), after.filterMap (Content.named ofKey?),
      ?_, ?_⟩
    · rw [List.filterMap_append, List.filterMap_cons_some (hnamed part)]
    · rw [List.filterMap_append, List.filterMap_cons_some (hnamed other)]
  · cases hfields

theorem exists_zip_eq {all : List φ} {before : List Content} (h : all[before.length]? = some field)
    (after : List Content) : ∃ first rest, ∀ part,
      all.zip (before ++ part :: after) = first ++ (field, part) :: rest := by
  induction before generalizing all with
  | nil =>
    cases all with
    | nil => cases h
    | cons head tail =>
      obtain rfl : head = field := Option.some.inj h
      exact ⟨[], tail.zip after, fun part => rfl⟩
  | cons item before ih =>
    cases all with
    | nil => cases h
    | cons head tail =>
      have htail : tail[before.length]? = some field := h
      obtain ⟨first, rest, hzip⟩ := ih htail
      exact ⟨(head, item) :: first, rest, fun part => congrArg (List.cons (head, item)) (hzip part)⟩

/-- An item that stands for a field is one of the fields. -/
theorem follows_zip {all : List φ} {before after : List Content}
    (h : all[before.length]? = some field) (ofKey? : String → Option φ) :
    Follows (FieldApart field part other)
      ((Content.list (before ++ part :: after)).fields all ofKey?)
      ((Content.list (before ++ other :: after)).fields all ofKey?) := by
  obtain ⟨first, rest, hzip⟩ := exists_zip_eq h after
  have hlength : ∀ content,
      (before ++ content :: after).length = before.length + after.length + 1 := by
    intro content
    rw [List.length_append, List.length_cons, Nat.add_assoc]
  rw [Content.fields, Content.fields, hlength, hlength, hzip, hzip]
  intro fields hfields
  split at hfields
  · next hall =>
    obtain rfl := Except.ok.inj hfields
    exact ⟨_, if_pos hall, first, rest, rfl, rfl⟩
  · cases hfields

/-- **A record is read** field by field, and the one that differs can be read last. -/
theorem Follows.record [DecidableEq φ] {r : σ → σ → Prop} {fill : σ → φ → Content → Except Unit σ}
    (hcomm : Commutes fill)
    (hfill : ∀ sofar, Follows r (fill sofar field part) (fill sofar field other))
    {fields others : Except Unit (List (φ × Content))}
    (h : Follows (FieldApart field part other) fields others) (empty : σ) :
    Follows r (fields >>= fillAll fill empty) (others >>= fillAll fill empty) := by
  refine h.bind fun xs ys hxys => ?_
  obtain ⟨before, after, rfl, rfl⟩ := hxys
  rw [fillAll_split hcomm, fillAll_split hcomm]
  split
  · intro read hread
    cases hread
  · refine (Follows.of_eq rfl).bind fun x y hsame => ?_
    obtain rfl := hsame
    exact hfill x

end Records

end Json

end SchemaTypes
