import SchemaTypes.Toml.Document
import Mathlib.Data.List.Nodup

/-!
# Keys that stand once

A key that is written again where it may not be is refused, and a header that comes back to a table
moves or changes the entry that is there. So no table of a document has a key twice, at any depth,
and what a key says in a table is one value.

## Main definitions

* `Toml.Distinct`: no two entries have the same key
* `Toml.Value.Keyed`, `Toml.Keyed`: no table has a key twice, at any depth

## Main results

* `Toml.descend_keyed`: changing the entries at the end of a path keeps that
* `Toml.values_keyed`: a value that is read has it
* `Toml.readDocument?_keyed`: so has a document
-/

namespace SchemaTypes

namespace Toml

variable {entries changed : List Entry} {key : Key} {span : Span} {value : Value}

/-- No two entries have the same key. -/
def Distinct (entries : List Entry) : Prop :=
  (entries.map fun entry => entry.1.text).Nodup

/-- Whether a value has no values inside. -/
def Value.isPlain : Value → Bool
  | .array _ _ => false
  | .table _ _ => false
  | _ => true

/-- No table in a value has a key twice. -/
inductive Value.Keyed : Value → Prop
  | plain {value : Value} (h : value.isPlain = true) : Keyed value
  | array {ofTables : Bool} {items : List (Span × Value)} (h : ∀ item ∈ items, Keyed item.2) :
    Keyed (.array ofTables items)
  | table {origin : Origin} {entries : List Entry} (hkeys : Distinct entries)
    (h : ∀ entry ∈ entries, Keyed entry.2.2) : Keyed (.table origin entries)

/-- Neither the table of some entries nor one in their values has a key twice. -/
def Keyed (entries : List Entry) : Prop :=
  Distinct entries ∧ ∀ entry ∈ entries, entry.2.2.Keyed

theorem keyed_nil : Keyed [] :=
  ⟨List.nodup_nil, fun _ h => absurd h List.not_mem_nil⟩

theorem keyed_table {origin : Origin} : (Value.table origin entries).Keyed ↔ Keyed entries := by
  constructor
  · rintro (hplain | - | ⟨hkeys, h⟩)
    · exact absurd hplain Bool.false_ne_true
    · exact ⟨hkeys, h⟩
  · rintro ⟨hkeys, h⟩
    exact .table hkeys h

theorem keyed_array {ofTables : Bool} {items : List (Span × Value)} :
    (Value.array ofTables items).Keyed ↔ ∀ item ∈ items, item.2.Keyed := by
  constructor
  · rintro (hplain | h | -)
    · exact absurd hplain Bool.false_ne_true
    · exact h
  · exact .array

/-! ### Entries of a table -/

theorem text_of_lookup? {name : String} {entry : Entry} (h : lookup? name entries = some entry) :
    entry.1.text = name := by
  have htext := List.find?_some h
  exact of_decide_eq_true htext

theorem notMem_of_lookup? {name : String} (h : lookup? name entries = none) :
    name ∉ entries.map fun entry => entry.1.text := by
  rw [lookup?, List.find?_eq_none] at h
  rintro hmem
  obtain ⟨entry, hentry, htext⟩ := List.mem_map.mp hmem
  exact h entry hentry (decide_eq_true htext)

/-- A key that is new may stand behind the others. -/
theorem Keyed.append (hentries : Keyed entries)
    (hnew : key.text ∉ entries.map fun entry => entry.1.text) (hvalue : value.Keyed) :
    Keyed (entries ++ [(key, span, value)]) := by
  refine ⟨?_, fun entry hentry => ?_⟩
  · rw [Distinct, List.map_append, List.map_singleton, ← List.concat_eq_append]
    exact hentries.1.concat hnew
  · rcases List.mem_append.mp hentry with hold | hlast
    · exact hentries.2 entry hold
    · rw [List.mem_singleton.mp hlast]
      exact hvalue

/-- Replacing a value moves no key. -/
theorem map_replaceValue (name : String) (value : Value) (entries : List Entry) :
    (replaceValue name value entries).map (fun entry => entry.1.text) =
      entries.map fun entry => entry.1.text := by
  rw [replaceValue, List.map_map]
  refine List.map_congr_left fun entry _ => ?_
  rw [Function.comp_apply]
  split <;> rfl

theorem Keyed.replaceValue (hentries : Keyed entries) (name : String) (hvalue : value.Keyed) :
    Keyed (replaceValue name value entries) := by
  refine ⟨?_, fun entry hentry => ?_⟩
  · rw [Distinct, map_replaceValue]
    exact hentries.1
  · obtain ⟨old, hold, rfl⟩ := List.mem_map.mp hentry
    split
    · exact hvalue
    · exact hentries.2 old hold

/-- Without its key, the entries leave room for it. -/
theorem Keyed.removeKey (hentries : Keyed entries) (name : String) :
    Keyed (removeKey name entries) ∧
      name ∉ (Toml.removeKey name entries).map fun entry => entry.1.text := by
  refine ⟨⟨hentries.1.sublist (List.filter_sublist.map _), fun entry hentry => ?_⟩, fun hmem => ?_⟩
  · exact hentries.2 entry (List.mem_of_mem_filter hentry)
  · obtain ⟨entry, hentry, htext⟩ := List.mem_map.mp hmem
    exact of_decide_eq_true (List.mem_filter.mp hentry).2 htext

theorem Keyed.of_lookup? (hentries : Keyed entries) {name : String} {entry : Entry}
    (h : lookup? name entries = some entry) : entry.2.2.Keyed :=
  hentries.2 entry (List.mem_of_find?_eq_some h)

/-- Among entries with distinct keys, the entry of a key is the one that has it. -/
theorem Distinct.lookup?_eq_some_iff (hkeys : Distinct entries) {name : String} {entry : Entry} :
    lookup? name entries = some entry ↔ entry ∈ entries ∧ entry.1.text = name := by
  constructor
  · intro h
    exact ⟨List.mem_of_find?_eq_some h, text_of_lookup? h⟩
  · rintro ⟨hentry, rfl⟩
    cases hfound : lookup? entry.1.text entries with
    | none => exact absurd (List.mem_map_of_mem hentry) (notMem_of_lookup? hfound)
    | some found =>
      rw [List.inj_on_of_nodup_map hkeys (List.mem_of_find?_eq_some hfound) hentry
        (text_of_lookup? hfound)]

/-! ### Changes -/

/-- Changing the entries at the end of a path keeps every key apart, if the change does. -/
theorem descend_keyed {byDots : Bool} {change : List Entry → Option (List Entry)}
    (hchange : ∀ {entries changed}, Keyed entries → change entries = some changed → Keyed changed)
    {path : List Key} (hentries : Keyed entries)
    (h : descend byDots change path entries = some changed) : Keyed changed := by
  induction path generalizing entries changed with
  | nil => exact hchange hentries h
  | cons key path ih =>
    rw [descend] at h
    split at h
    · next hlookup =>
      simp only [Option.bind_eq_bind, Option.bind_eq_some_iff, Option.some.injEq] at h
      obtain ⟨inner, hinner, rfl⟩ := h
      exact hentries.append (notMem_of_lookup? hlookup)
        (keyed_table.mpr (ih keyed_nil hinner))
    · next origin inner hlookup =>
      have hinner : Keyed inner := keyed_table.mp (hentries.of_lookup? hlookup)
      split at h
      · cases h
      · simp only [Option.bind_eq_bind, Option.bind_eq_some_iff, Option.some.injEq] at h
        obtain ⟨after, hafter, rfl⟩ := h
        exact hentries.replaceValue _ (keyed_table.mpr (ih hinner hafter))
    · next items hlookup =>
      have hitems := keyed_array.mp (hentries.of_lookup? hlookup)
      split at h
      · cases h
      · split at h
        · next span origin inner before hreverse =>
          have hmem : ∀ item ∈ (span, Value.table origin inner) :: before, item.2.Keyed := by
            rw [← hreverse]
            exact fun item hitem => hitems item (List.mem_reverse.mp hitem)
          obtain ⟨hlast, hbefore⟩ := List.forall_mem_cons.mp hmem
          simp only [Option.bind_eq_bind, Option.bind_eq_some_iff, Option.some.injEq] at h
          obtain ⟨after, hafter, rfl⟩ := h
          have hafter : (Value.table origin after).Keyed :=
            keyed_table.mpr (ih (keyed_table.mp hlast) hafter)
          refine hentries.replaceValue _ (keyed_array.mpr fun item hitem => ?_)
          rcases List.mem_cons.mp (List.mem_reverse.mp hitem) with rfl | hold
          · exact hafter
          · exact hbefore item hold
        · cases h
    · cases h

theorem insertNew_keyed (hvalue : value.Keyed) (hentries : Keyed entries)
    (h : insertNew key span value entries = some changed) : Keyed changed := by
  rw [insertNew] at h
  split at h
  · next hlookup =>
    obtain rfl := Option.some.inj h
    exact hentries.append (notMem_of_lookup? hlookup) hvalue
  · cases h

theorem insertValue_keyed {path : List Key} (hvalue : value.Keyed) (hentries : Keyed entries)
    (h : insertValue path key span value entries = some changed) : Keyed changed :=
  descend_keyed (insertNew_keyed hvalue) hentries h

theorem openTable_keyed (hentries : Keyed entries)
    (h : openTable key span entries = some changed) : Keyed changed := by
  rw [openTable] at h
  split at h
  · next hlookup =>
    obtain rfl := Option.some.inj h
    exact hentries.append (notMem_of_lookup? hlookup) (keyed_table.mpr keyed_nil)
  · next inner hlookup =>
    obtain rfl := Option.some.inj h
    obtain ⟨hothers, hnew⟩ := hentries.removeKey key.text
    have hinner : Keyed inner := keyed_table.mp (hentries.of_lookup? hlookup)
    exact hothers.append hnew (keyed_table.mpr hinner)
  · cases h

theorem openListTable_keyed (hentries : Keyed entries)
    (h : openListTable key span entries = some changed) : Keyed changed := by
  have htable : (Value.table .header []).Keyed := keyed_table.mpr keyed_nil
  rw [openListTable] at h
  split at h
  · next hlookup =>
    obtain rfl := Option.some.inj h
    refine hentries.append (notMem_of_lookup? hlookup) (keyed_array.mpr ?_)
    exact List.forall_mem_singleton.mpr htable
  · next items hlookup =>
    obtain rfl := Option.some.inj h
    have hitems := keyed_array.mp (hentries.of_lookup? hlookup)
    refine hentries.replaceValue _ (keyed_array.mpr ?_)
    exact List.forall_mem_append.mpr ⟨hitems, List.forall_mem_singleton.mpr htable⟩
  · cases h

/-! ### Values -/

/-- A word stands for a value with nothing inside. -/
theorem isPlain_held (base : Nat) (isDigit : Char → Bool) (negative : Bool) (digits : List Char) :
    (held base isDigit negative digits).isPlain = true := by
  rw [held]
  split <;> split <;> rfl

theorem isPlain_ofMagnitude (negative : Bool) (magnitude : Float) :
    (ofMagnitude negative magnitude).isPlain = true := by
  rw [ofMagnitude]
  split <;> rfl

theorem isPlain_heldFloating (negative : Bool) (whole fraction : List Char) (exponent : Int) :
    (heldFloating negative whole fraction exponent).isPlain = true := by
  rw [heldFloating]
  split
  · exact isPlain_ofMagnitude _ _
  · split
    · rfl
    · exact isPlain_ofMagnitude _ _

theorem isPlain_of_markedInteger? {text : List Char} (h : markedInteger? text = some value) :
    value.isPlain = true := by
  have hbased : ∀ {base isDigit digits},
      basedInteger? base isDigit digits = some value → value.isPlain = true := by
    intro base isDigit digits h
    rw [basedInteger?, Option.ite_none_right_eq_some, Option.some.injEq] at h
    rw [← h.2]
    exact isPlain_held _ _ _ _
  rw [markedInteger?.eq_def] at h
  split at h
  · exact hbased h
  · exact hbased h
  · exact hbased h
  · cases h

theorem isPlain_of_floating? {negative : Bool} {body : List Char}
    (h : floating? negative body = some value) : value.isPlain = true := by
  simp only [floating?, Option.bind_eq_bind, Option.bind_eq_some_iff] at h
  obtain ⟨_, -, h⟩ := h
  rw [Option.ite_none_left_eq_some] at h
  obtain ⟨-, h⟩ := h
  simp only [Option.bind_eq_some_iff] at h
  obtain ⟨_, -, _, -, h⟩ := h
  rw [Option.ite_none_right_eq_some, Option.some.injEq] at h
  rw [← h.2]
  exact isPlain_heldFloating _ _ _ _

theorem isPlain_of_number? {sign : Option Bool} {body : List Char}
    (h : number? sign body = some value) : value.isPlain = true := by
  rw [number?] at h
  split at h
  · cases h
  · split at h
    · exact isPlain_of_floating? (Option.ite_none_right_eq_some.mp h).2
    · split at h
      · rw [Option.ite_none_right_eq_some, integer?, Option.ite_none_left_eq_some] at h
        rw [← Option.some.inj h.2.2]
        exact isPlain_held _ _ _ _
      · cases h

/-- A word stands for a value with nothing inside. -/
theorem isPlain_of_readWord? {word : List Char} (h : readWord? word = some value) :
    value.isPlain = true := by
  have hplain : ∀ {plain : Value}, plain.isPlain = true → some plain = some value →
      value.isPlain = true := fun hp heq => Option.some.inj heq ▸ hp
  rw [readWord?] at h
  split at h
  split at h
  · exact hplain rfl h
  split at h
  · exact hplain rfl h
  split at h
  · exact hplain rfl h
  split at h
  · exact hplain rfl h
  split at h
  · exact hplain rfl (Option.ite_none_right_eq_some.mp h).2
  · rcases Option.or_eq_some_iff.mp h with hmarked | ⟨-, hnumber⟩
    · exact isPlain_of_markedInteger? hmarked
    · exact isPlain_of_number? hnumber

theorem isPlain_of_word? {cursor after : Cursor} (h : word? cursor = some (value, after)) :
    value.isPlain = true := by
  obtain ⟨read, hread, heq⟩ := Option.map_eq_some_iff.mp h
  rw [← (Prod.mk.inj heq).1]
  exact isPlain_of_readWord? hread

/-- **A value that is read** has no table with a key twice, and neither have the items and the
entries inside. -/
theorem values_keyed (fuel : Nat) :
    (∀ {room cursor value after}, value? fuel room cursor = some (value, after) → value.Keyed) ∧
    (∀ {room cursor items after}, items? fuel room cursor = some (items, after) →
      ∀ item ∈ items, item.2.Keyed) ∧
    (∀ {room sofar cursor entries after}, Keyed sofar →
      inlineEntries? fuel room sofar cursor = some (entries, after) → Keyed entries) := by
  induction fuel with
  | zero =>
    refine ⟨fun h => ?_, fun h => ?_, fun _ h => ?_⟩
    · cases h
    · cases h
    · cases h
  | succ fuel ih =>
    obtain ⟨ihvalue, ihitems, ihentries⟩ := ih
    refine ⟨fun {room cursor value after} h => ?_, fun {room cursor items after} h => ?_,
      fun {room sofar cursor entries after} hsofar h => ?_⟩
    · have htext : ∀ {string : Option (String × Cursor)},
          (string.map fun read => (Value.text read.1, read.2)) = some (value, after) →
            value.Keyed := by
        intro string hstring
        obtain ⟨read, -, heq⟩ := Option.map_eq_some_iff.mp hstring
        rw [← (Prod.mk.inj heq).1]
        exact .plain rfl
      rw [value?] at h
      split at h
      · exact htext h
      · exact htext h
      · simp only [Option.ite_none_left_eq_some, Option.bind_eq_bind, Option.bind_eq_some_iff,
          Option.some.injEq, Prod.mk.injEq, Prod.exists] at h
        obtain ⟨-, items, _, hitems, rfl, -⟩ := h
        exact keyed_array.mpr (ihitems hitems)
      · simp only [Option.ite_none_left_eq_some, Option.bind_eq_bind, Option.bind_eq_some_iff,
          Option.some.injEq, Prod.mk.injEq, Prod.exists] at h
        obtain ⟨-, entries, _, hentries, rfl, -⟩ := h
        exact keyed_table.mpr (ihentries keyed_nil hentries)
      · exact .plain (isPlain_of_word? h)
    · rw [items?, Option.bind_eq_bind, Option.bind_eq_some_iff] at h
      obtain ⟨start, -, h⟩ := h
      split at h
      · cases h
        exact fun _ hitem => absurd hitem List.not_mem_nil
      · simp only [Option.bind_eq_bind, Option.bind_eq_some_iff, Prod.exists] at h
        obtain ⟨value, stop, hvalue, next, -, h⟩ := h
        have hfirst : value.Keyed := ihvalue hvalue
        split at h
        · next more _ =>
          simp only [Option.bind_eq_some_iff, Option.some.injEq, Prod.mk.injEq, Prod.exists] at h
          obtain ⟨others, _, hothers, rfl, -⟩ := h
          exact List.forall_mem_cons.mpr ⟨hfirst, ihitems hothers⟩
        · simp only [Option.bind_eq_some_iff, Option.some.injEq, Prod.mk.injEq] at h
          obtain ⟨_, -, rfl, -⟩ := h
          exact List.forall_mem_singleton.mpr hfirst
    · rw [inlineEntries?, Option.bind_eq_bind, Option.bind_eq_some_iff] at h
      obtain ⟨start, -, h⟩ := h
      split at h
      · cases h
        exact hsofar
      · simp only [Option.bind_eq_bind, Option.bind_eq_some_iff, Prod.exists] at h
        obtain ⟨path, key, behind, -, _, -, _, -, first, -, value, stop, hvalue, written, hwritten,
          next, -, h⟩ := h
        have hkeyed : Keyed written := insertValue_keyed (ihvalue hvalue) hsofar hwritten
        split at h
        · exact ihentries hkeyed h
        · simp only [Option.bind_eq_some_iff, Option.some.injEq, Prod.mk.injEq] at h
          obtain ⟨_, -, rfl, -⟩ := h
          exact hkeyed

/-! ### Documents -/

/-- The value of an expression has no table with a key twice. -/
def Expression.Keyed : Expression → Prop
  | .header _ _ _ _ => True
  | .entry _ _ _ value => value.Keyed

theorem keyed_of_entry {cursor after : Cursor} {expression : Expression}
    (h : entry? cursor = some (expression, after)) : expression.Keyed := by
  simp only [Option.bind_eq_bind, Option.bind_eq_some_iff, Option.some.injEq, Prod.mk.injEq,
    Prod.exists, entry?] at h
  obtain ⟨_, _, _, -, _, -, value, _, hvalue, rfl, -⟩ := h
  exact (values_keyed _).1 hvalue

theorem header?_keyed {cursor after : Cursor} {expression : Expression}
    (h : header? cursor = some (expression, after)) : expression.Keyed := by
  simp only [header?, Option.bind_eq_bind, Option.bind_eq_some_iff, Prod.exists] at h
  obtain ⟨_, _, _, -, _, -, h⟩ := h
  split at h
  all_goals
    simp only [Option.bind_eq_some_iff, Option.some.injEq, Prod.mk.injEq] at h
    obtain ⟨_, -, rfl, -⟩ := h
    trivial

theorem expressions?_keyed {fuel : Nat} {cursor : Cursor} {expressions : List Expression}
    (h : expressions? fuel cursor = some expressions) :
    ∀ expression ∈ expressions, expression.Keyed := by
  induction fuel generalizing cursor expressions with
  | zero => cases h
  | succ fuel ih =>
    rw [expressions?, Option.bind_eq_bind, Option.bind_eq_some_iff] at h
    obtain ⟨start, -, h⟩ := h
    split at h
    · cases h
      exact fun _ hmem => absurd hmem List.not_mem_nil
    · split at h
      · simp only [Option.bind_eq_bind, Option.bind_eq_some_iff, Option.some.injEq,
          Prod.exists] at h
        obtain ⟨header, after, hheader, next, -, others, hothers, rfl⟩ := h
        exact List.forall_mem_cons.mpr ⟨header?_keyed hheader, ih hothers⟩
      · simp only [Option.bind_eq_bind, Option.bind_eq_some_iff, Option.some.injEq,
          Prod.exists] at h
        obtain ⟨entry, after, hentry, next, -, others, hothers, rfl⟩ := h
        exact List.forall_mem_cons.mpr ⟨keyed_of_entry hentry, ih hothers⟩

/-- One expression more keeps every key apart. -/
theorem addExpression_keyed {state after : List Entry × List Key} {expression : Expression}
    (hexpression : expression.Keyed) (hstate : Keyed state.1)
    (h : addExpression state expression = some after) : Keyed after.1 := by
  cases expression with
  | header ofList path key span =>
    simp only [addExpression, Option.bind_eq_bind, Option.bind_eq_some_iff, Option.some.injEq] at h
    obtain ⟨root, hroot, rfl⟩ := h
    refine descend_keyed (fun hentries hchanged => ?_) hstate hroot
    split at hchanged
    · exact openListTable_keyed hentries hchanged
    · exact openTable_keyed hentries hchanged
  | entry path key span value =>
    simp only [addExpression, Option.bind_eq_bind, Option.bind_eq_some_iff, Option.some.injEq] at h
    obtain ⟨root, hroot, rfl⟩ := h
    exact descend_keyed (insertValue_keyed hexpression) hstate hroot

theorem foldlM_addExpression_keyed {expressions : List Expression}
    {state after : List Entry × List Key}
    (hexpressions : ∀ expression ∈ expressions, expression.Keyed) (hstate : Keyed state.1)
    (h : expressions.foldlM addExpression state = some after) : Keyed after.1 := by
  induction expressions generalizing state with
  | nil =>
    cases h
    exact hstate
  | cons expression others ih =>
    rw [List.foldlM_cons, Option.bind_eq_bind, Option.bind_eq_some_iff] at h
    obtain ⟨next, hnext, h⟩ := h
    obtain ⟨hfirst, hothers⟩ := List.forall_mem_cons.mp hexpressions
    exact ih hothers (addExpression_keyed hfirst hstate hnext) h

/-- **A document** has no table with a key twice, at any depth. -/
theorem readDocument?_keyed {text : List Char} (h : readDocument? text = some entries) :
    Keyed entries := by
  simp only [readDocument?, Option.bind_eq_bind, Option.bind_eq_some_iff, Option.some.injEq,
    Prod.exists] at h
  obtain ⟨expressions, hread, root, path, hfold, rfl⟩ := h
  exact foldlM_addExpression_keyed (expressions?_keyed hread) keyed_nil hfold

end Toml

end SchemaTypes
