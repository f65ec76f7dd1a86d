import SchemaTypes.TypeScript.Naming
import SchemaTypes.Proofs.Json.Literal
import Mathlib.Data.List.TakeWhile

/-!
# Member names as prefixes

A member name is written as an identifier or as a literal. The first ends where no character of an
identifier follows, the second ends by itself, and they differ in their first character. So a line
that starts with a member name tells which name it is.

## Main results

* `TypeScript.memberName_append_cancel`: two member names at the start of one line are the same
* `TypeScript.memberName_injective`: no two names are written alike
* `TypeScript.notMem_memberName`: a member name stays on one line
-/

namespace SchemaTypes

namespace TypeScript

/-! ### Identifiers -/

theorem isIdentifierPart_of_isIdentifierStart {c : Char} (h : isIdentifierStart c = true) :
    isIdentifierPart c = true := by
  rw [isIdentifierPart, h, Bool.true_or]

/-- An identifier has a first character, which starts it, and the rest are parts of it. -/
theorem exists_cons_of_isIdentifier {name : String} (h : isIdentifier name = true) :
    ∃ c rest, name.toList = c :: rest ∧ isIdentifierStart c = true ∧
      ∀ d ∈ rest, isIdentifierPart d = true := by
  rw [isIdentifier] at h
  cases hname : name.toList with
  | nil => simp [hname, isIdentifierText] at h
  | cons c rest =>
    rw [hname, isIdentifierText, Bool.and_eq_true, List.all_eq_true] at h
    exact ⟨c, rest, rfl, h⟩

theorem isIdentifierPart_of_mem {name : String} (h : isIdentifier name = true) :
    ∀ c ∈ name.toList, isIdentifierPart c = true := by
  obtain ⟨c, rest, hname, hstart, hrest⟩ := exists_cons_of_isIdentifier h
  rw [hname]
  exact List.forall_mem_cons.mpr ⟨isIdentifierPart_of_isIdentifierStart hstart, hrest⟩

/-- A character that no identifier holds. -/
theorem notMem_of_isIdentifier {name : String} (h : isIdentifier name = true) {c : Char}
    (hc : isIdentifierPart c = false) : c ∉ name.toList := by
  intro hmem
  rw [isIdentifierPart_of_mem h c hmem] at hc
  exact Bool.noConfusion hc

/-! ### Member names -/

theorem memberName_of_isIdentifier {name : String} (h : isIdentifier name = true) :
    memberName name = name :=
  if_pos h

theorem memberName_of_not_isIdentifier {name : String} (h : ¬ isIdentifier name = true) :
    memberName name = Text.literal name :=
  if_neg h

/-- The first character of a member name tells which of the two spellings it has. -/
theorem exists_cons_memberName (name : String) :
    ∃ c rest, (memberName name).toList = c :: rest ∧
      if isIdentifier name then isIdentifierStart c = true else c = '"' := by
  by_cases h : isIdentifier name = true
  · obtain ⟨c, rest, hname, hstart, -⟩ := exists_cons_of_isIdentifier h
    exact ⟨c, rest, by rw [memberName_of_isIdentifier h, hname], by rwa [if_pos h]⟩
  · exact ⟨'"', _, by rw [memberName_of_not_isIdentifier h, Text.toList_literal], by rw [if_neg h]⟩

/-- Two member names at the start of one line have the same spelling. -/
theorem isIdentifier_congr {a b : String} {xs ys : List Char}
    (h : (memberName a).toList ++ xs = (memberName b).toList ++ ys) :
    isIdentifier a = isIdentifier b := by
  obtain ⟨c, rest, ha, hc⟩ := exists_cons_memberName a
  obtain ⟨d, rest', hb, hd⟩ := exists_cons_memberName b
  rw [ha, hb, List.cons_append, List.cons_append] at h
  obtain rfl := (List.cons.inj h).1
  have hquote : isIdentifierStart '"' = false := by decide
  cases hia : isIdentifier a <;> cases hib : isIdentifier b <;> simp_all

/-- An identifier is the longest run of its characters. -/
theorem takeWhile_of_isIdentifier {name : String} {rest : List Char}
    (hname : isIdentifier name = true) (hrest : ∀ c ∈ rest.head?, isIdentifierPart c = false) :
    (name.toList ++ rest).takeWhile isIdentifierPart = name.toList := by
  rw [List.takeWhile_append_of_pos (isIdentifierPart_of_mem hname)]
  cases rest with
  | nil => exact List.append_nil _
  | cons c rest => rw [List.takeWhile_cons_of_neg (by simp [hrest c rfl]), List.append_nil]

/-- Two identifiers at the start of one line are the same, if neither goes on. -/
theorem identifier_append_cancel {a b : String} {xs ys : List Char}
    (ha : isIdentifier a = true) (hb : isIdentifier b = true)
    (hxs : ∀ c ∈ xs.head?, isIdentifierPart c = false)
    (hys : ∀ c ∈ ys.head?, isIdentifierPart c = false)
    (h : a.toList ++ xs = b.toList ++ ys) : a = b ∧ xs = ys := by
  have hname : a.toList = b.toList := by
    rw [← takeWhile_of_isIdentifier ha hxs, h, takeWhile_of_isIdentifier hb hys]
  obtain rfl := String.toList_inj.mp hname
  exact ⟨rfl, List.append_cancel_left h⟩

/-- **Two member names at the start of one line are the same**, if what follows them could not go on
with an identifier. What follows is then the same too. -/
theorem memberName_append_cancel {a b : String} {xs ys : List Char}
    (hxs : ∀ c ∈ xs.head?, isIdentifierPart c = false)
    (hys : ∀ c ∈ ys.head?, isIdentifierPart c = false)
    (h : (memberName a).toList ++ xs = (memberName b).toList ++ ys) : a = b ∧ xs = ys := by
  have hspelling := isIdentifier_congr h
  by_cases ha : isIdentifier a = true
  · have hb : isIdentifier b = true := hspelling ▸ ha
    rw [memberName_of_isIdentifier ha, memberName_of_isIdentifier hb] at h
    exact identifier_append_cancel ha hb hxs hys h
  · have hb : ¬ isIdentifier b = true := hspelling ▸ ha
    rw [memberName_of_not_isIdentifier ha, memberName_of_not_isIdentifier hb] at h
    exact Text.literal_append_cancel h

/-- No two names are written alike. -/
theorem memberName_injective : Function.Injective memberName := by
  intro a b h
  have hnothing : ∀ c ∈ ([] : List Char).head?, isIdentifierPart c = false := by simp
  exact (memberName_append_cancel hnothing hnothing (by rw [h])).1

/-- A member name stays on one line. -/
theorem notMem_memberName (name : String) : '\n' ∉ (memberName name).toList := by
  by_cases h : isIdentifier name = true
  · rw [memberName_of_isIdentifier h]
    exact notMem_of_isIdentifier h (by decide)
  · rw [memberName_of_not_isIdentifier h]
    exact fun hmem => absurd (Text.le_of_mem_literal hmem) (by decide)

end TypeScript

end SchemaTypes
