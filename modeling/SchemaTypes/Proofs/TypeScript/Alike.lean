import SchemaTypes.Proofs.Decimal.Denoted
import SchemaTypes.TypeScript.Naming

/-!
# Different things with one name

The name of a member is made from the key of a property or from the value of an enum, and something
is lost on the way: dots and hyphens become underscores, a text loses its quotes, and an underscore
is put where a name could not start. Here it is told exactly which keys and which values get the
same name.

## Main definitions

* `TypeScript.Alike`: keys that differ in their separators at most
* `TypeScript.Confusable`: displays that are the same but for the underscore that one needs
* `TypeScript.Mistaken`: values of which one is a text, with confusable displays

## Main results

* `TypeScript.normalizeKey_eq_iff`: the keys that get the same name
* `TypeScript.enumMemberName_eq_iff`: the values that get the same name
-/

namespace SchemaTypes

namespace TypeScript

open Schema

/-! ### Keys -/

/-- The characters that stand for one another in keys. -/
def separators : List Char :=
  ['.', '-', '_']

/-- Two keys agree but for their separators. -/
def Alike (a b : String) : Prop :=
  List.Forall₂ (fun c d => c = d ∨ c ∈ separators ∧ d ∈ separators) a.toList b.toList

theorem normalizeChar_eq_iff {c d : Char} :
    normalizeChar c = normalizeChar d ↔ c = d ∨ c ∈ separators ∧ d ∈ separators := by
  rw [normalizeChar, normalizeChar]
  simp only [separators, List.mem_cons, List.not_mem_nil, or_false]
  split <;> split <;> grind

/-- **Two keys get the same name** exactly if they agree but for their separators. -/
theorem normalizeKey_eq_iff {a b : String} : normalizeKey a = normalizeKey b ↔ Alike a b := by
  rw [normalizeKey, normalizeKey, String.ofList_inj, Alike, ← List.forall₂_eq_eq_eq,
    List.forall₂_map_left_iff, List.forall₂_map_right_iff]
  simp only [normalizeChar_eq_iff]

/-! ### Values -/

def IsText (value : EnumValue) : Prop :=
  ∃ text, value = .text text

/-- Whether a display has to stand behind an underscore. -/
def NeedsUnderscore (display : String) : Prop :=
  display = "" ∨ startsWithDigit display.toList = true

/-- Two displays are the same, or one is the other behind the underscore that it needs. -/
def Confusable (a b : String) : Prop :=
  a = b ∨ NeedsUnderscore a ∧ b = "_" ++ a ∨ NeedsUnderscore b ∧ a = "_" ++ b

/-- Two values of which one is a text, and whose displays are confusable. -/
def Mistaken (a b : EnumValue) : Prop :=
  (IsText a ∨ IsText b) ∧ Confusable a.display b.display

theorem enumMemberName_of_needs {value : EnumValue} (h : NeedsUnderscore value.display) :
    enumMemberName value = "_" ++ value.display :=
  if_pos h

theorem enumMemberName_of_not_needs {value : EnumValue} (h : ¬ NeedsUnderscore value.display) :
    enumMemberName value = value.display :=
  if_neg h

/-- What stands behind an underscore needs no other. -/
theorem not_needsUnderscore_append (text : String) : ¬ NeedsUnderscore ("_" ++ text) := by
  rintro (hempty | hdigit)
  · exact absurd (congrArg String.toList hempty) (by simp)
  · rw [String.toList_append] at hdigit
    exact absurd hdigit (by simp [startsWithDigit])

theorem enumMemberName_eq_iff_confusable {a b : EnumValue} :
    enumMemberName a = enumMemberName b ↔ Confusable a.display b.display := by
  rw [Confusable]
  by_cases ha : NeedsUnderscore a.display <;> by_cases hb : NeedsUnderscore b.display
  · rw [enumMemberName_of_needs ha, enumMemberName_of_needs hb, String.append_right_inj]
    refine ⟨.inl, ?_⟩
    rintro (h | ⟨-, h⟩ | ⟨-, h⟩)
    · exact h
    · exact absurd (h ▸ hb) (not_needsUnderscore_append _)
    · exact absurd (h ▸ ha) (not_needsUnderscore_append _)
  · rw [enumMemberName_of_needs ha, enumMemberName_of_not_needs hb]
    refine ⟨fun h => .inr (.inl ⟨ha, h.symm⟩), ?_⟩
    rintro (h | ⟨-, h⟩ | ⟨hneeds, -⟩)
    · exact absurd (h ▸ ha) hb
    · exact h.symm
    · exact absurd hneeds hb
  · rw [enumMemberName_of_not_needs ha, enumMemberName_of_needs hb]
    refine ⟨fun h => .inr (.inr ⟨hb, h⟩), ?_⟩
    rintro (h | ⟨hneeds, -⟩ | ⟨-, h⟩)
    · exact absurd (h ▸ hb) ha
    · exact absurd hneeds ha
    · exact h
  · rw [enumMemberName_of_not_needs ha, enumMemberName_of_not_needs hb]
    refine ⟨.inl, ?_⟩
    rintro (h | ⟨hneeds, -⟩ | ⟨hneeds, -⟩)
    · exact h
    · exact absurd hneeds ha
    · exact absurd hneeds hb

/-- A number is shown with the characters of numbers only, and a truth value is not. -/
theorem number_display_ne (number : Json.Number) (b : Bool) :
    number.render ≠ Json.booleanText b := by
  intro h
  have hchars := Json.Number.isNumeral_render number
  rw [h] at hchars
  cases b with
  | true => exact absurd (hchars 't' (by decide)) (by decide)
  | false => exact absurd (hchars 'f' (by decide)) (by decide)

/-- Only a text is shown with an underscore at its start. -/
theorem isText_of_display_eq {value : EnumValue} {text : String}
    (h : value.display = "_" ++ text) : IsText value := by
  have hstart : '_' ∈ value.display.toList := by
    rw [h, String.toList_append]
    exact List.mem_append_left _ (by decide)
  cases value with
  | text value => exact ⟨value, rfl⟩
  | number number => exact absurd (Json.Number.isNumeral_render number '_' hstart) (by decide)
  | boolean b =>
    cases b with
    | true => exact absurd hstart (by decide)
    | false => exact absurd hstart (by decide)

/-- Values that are shown alike are the same, or one of them is a text. -/
theorem eq_or_isText_of_display {a b : EnumValue} (h : a.display = b.display) :
    a = b ∨ IsText a ∨ IsText b := by
  cases a with
  | text a => exact .inr (.inl ⟨a, rfl⟩)
  | number a =>
    cases b with
    | text b => exact .inr (.inr ⟨b, rfl⟩)
    | number b => exact .inl (congrArg _ (Json.Number.render_injective h))
    | boolean b => exact absurd h (number_display_ne a b)
  | boolean a =>
    cases b with
    | text b => exact .inr (.inr ⟨b, rfl⟩)
    | number b => exact absurd h.symm (number_display_ne b a)
    | boolean b => cases a <;> cases b <;> first | exact .inl rfl | exact absurd h (by decide)

/-- **Two values get the same name** exactly if they are the same or one is mistaken for the
other. -/
theorem enumMemberName_eq_iff {a b : EnumValue} :
    enumMemberName a = enumMemberName b ↔ a = b ∨ Mistaken a b := by
  rw [enumMemberName_eq_iff_confusable]
  constructor
  · intro h
    rcases id h with hsame | ⟨-, hb⟩ | ⟨-, ha⟩
    · rcases eq_or_isText_of_display hsame with rfl | htext
      · exact .inl rfl
      · exact .inr ⟨htext, h⟩
    · exact .inr ⟨.inr (isText_of_display_eq hb), h⟩
    · exact .inr ⟨.inl (isText_of_display_eq ha), h⟩
  · rintro (rfl | ⟨-, h⟩)
    · exact .inl rfl
    · exact h

end TypeScript

end SchemaTypes
