import SchemaTypes.Schema.Document
import Mathlib.Data.List.Nodup

/-!
# What a selection takes

A selection is a list of names. It is accepted if the document defines them all, and takes the
definitions with these names in the order of the document, so neither the order of the names nor
their repetition shows.

## Main definitions

* `Schema.Document.isChosen`: whether a selection takes the definitions with a name
* `Schema.Document.Distinct`: no two definitions share a name

## Main results

* `Schema.Document.select_eq_ok_iff`: which selections are accepted, and what they take
* `Schema.Document.select_congr`, `select_perm`: the order of names and of definitions
-/

namespace SchemaTypes

namespace Schema

namespace Document

variable {document permuted : Document} {names others : List String}
  {selected : List (String × Node)}

/-- Whether names select the definitions with a name. No names select them all. -/
def isChosen (names : List String) (name : String) : Bool :=
  names.isEmpty || names.contains name

/-- A selection is accepted if the document defines all of its names. It takes the definitions with
these names, in the order of the document. -/
theorem select_eq_ok_iff :
    document.select names = .ok selected ↔
      (∀ name ∈ names, document.defines name = true) ∧
        selected = document.definitions.filter fun definition => isChosen names definition.1 := by
  rw [select]
  cases hmissing : names.find? fun name => !document.defines name with
  | some missing =>
    have hundefined : ¬ document.defines missing = true := by
      simpa using List.find?_some hmissing
    refine ⟨fun h => (nomatch h), fun h => ?_⟩
    exact absurd (h.1 missing (List.mem_of_find?_eq_some hmissing)) hundefined
  | none =>
    have hdefined : ∀ name ∈ names, document.defines name = true := by
      simpa using List.find?_eq_none.mp hmissing
    rw [Except.ok.injEq]
    exact ⟨fun h => ⟨hdefined, h.symm⟩, fun h => h.2.symm⟩

/-- The name of a definition is selected exactly if the definition is. -/
theorem mem_map_fst_iff (h : document.select names = .ok selected) {definition : String × Node}
    (hd : definition ∈ document.definitions) :
    definition.1 ∈ selected.map Prod.fst ↔ isChosen names definition.1 = true := by
  obtain ⟨-, rfl⟩ := select_eq_ok_iff.mp h
  rw [List.mem_map]
  constructor
  · rintro ⟨other, hother, hname⟩
    rw [← hname]
    exact (List.mem_filter.mp hother).2
  · intro hchosen
    exact ⟨definition, List.mem_filter.mpr ⟨hd, hchosen⟩, rfl⟩

/-- Names that are the same but for order and repetition select the same names. -/
theorem isChosen_congr (h : ∀ name, name ∈ names ↔ name ∈ others) :
    isChosen names = isChosen others := by
  have hempty : names.isEmpty = others.isEmpty := by
    rw [Bool.eq_iff_iff, List.isEmpty_iff, List.isEmpty_iff, List.eq_nil_iff_forall_not_mem,
      List.eq_nil_iff_forall_not_mem]
    exact forall_congr' fun name => not_congr (h name)
  funext name
  have hcontains : names.contains name = others.contains name := by
    rw [Bool.eq_iff_iff, List.contains_iff_mem, List.contains_iff_mem]
    exact h name
  rw [isChosen, isChosen, hempty, hcontains]

/-- Names that are the same but for order and repetition select the same definitions. -/
theorem select_congr (h : ∀ name, name ∈ names ↔ name ∈ others)
    (hs : document.select names = .ok selected) : document.select others = .ok selected := by
  obtain ⟨hdefined, rfl⟩ := select_eq_ok_iff.mp hs
  refine select_eq_ok_iff.mpr ⟨fun name hname => hdefined name ((h name).mpr hname), ?_⟩
  rw [isChosen_congr h]

theorem defines_perm (h : permuted.definitions.Perm document.definitions) (name : String) :
    permuted.defines name = document.defines name := by
  rw [Bool.eq_iff_iff, defines, defines, List.any_eq_true, List.any_eq_true]
  constructor
  · rintro ⟨definition, hd, hname⟩
    exact ⟨definition, h.mem_iff.mp hd, hname⟩
  · rintro ⟨definition, hd, hname⟩
    exact ⟨definition, h.mem_iff.mpr hd, hname⟩

/-- A permuted document accepts the same selections, and gives a permutation of what they select. -/
theorem select_perm (h : permuted.definitions.Perm document.definitions)
    (hs : document.select names = .ok selected) :
    ∃ others, permuted.select names = .ok others ∧ others.Perm selected := by
  obtain ⟨hdefined, rfl⟩ := select_eq_ok_iff.mp hs
  refine ⟨_, select_eq_ok_iff.mpr ⟨fun name hname => ?_, rfl⟩, h.filter _⟩
  rw [defines_perm h]
  exact hdefined name hname

/-! ### Distinct names -/

/-- No two definitions share a name, as in every document that is read from a text. -/
def Distinct (document : Document) : Prop :=
  (document.definitions.map Prod.fst).Nodup

theorem Distinct.select (hdistinct : document.Distinct)
    (h : document.select names = .ok selected) : (selected.map Prod.fst).Nodup := by
  obtain ⟨-, rfl⟩ := select_eq_ok_iff.mp h
  exact hdistinct.sublist (List.filter_sublist.map Prod.fst)

end Document

end Schema

end SchemaTypes
