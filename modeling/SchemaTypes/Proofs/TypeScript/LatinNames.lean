import SchemaTypes.Proofs.TypeScript.Naming

/-!
# Member names in Latin-1

A member name stands without quotes if its characters are alphabetic or numeric. A script asks for
something else: what starts a name, and what continues it. Among the first 256 characters the two
agree on what starts a name, and on the digits. They part at the numbers that are no digits, the
raised digits and the fractions, which are numeric but have no place in a name.

## Main definitions

* `Unicode.isLatinLetter`, `Unicode.isLatinNumber`: the letters, and the numbers that are no digits
* `TypeScript.isLatinName`: a name of Latin-1 as a script has it, given what continues a name

## Main results

* `Unicode.isAlphabetic_latin`, `Unicode.isNumeric_latin`: the two properties within Latin-1
* `TypeScript.isIdentifier_latin`: the member names that stand without quotes
* `TypeScript.memberName_latin`: exactly which member names a script can read
* `TypeScript.not_every_memberName_legal`: one that it cannot
-/

namespace SchemaTypes

/-! ### Letters and numbers -/

namespace Unicode

/-- A character of Latin-1. -/
def IsLatin (c : Char) : Prop :=
  c.toNat < 0x100

/-- The letters of Latin-1. -/
def isLatinLetter (c : Char) : Bool :=
  c.isAlpha || c = 'ª' || c = 'µ' || c = 'º' ||
    (0xC0 ≤ c.toNat && c.toNat ≤ 0xFF && c ≠ '×' && c ≠ '÷')

/-- The numbers of Latin-1 that are no digits. -/
def isLatinNumber (c : Char) : Bool :=
  c = '²' || c = '³' || c = '¹' || c = '¼' || c = '½' || c = '¾'

/-- Ranges that start above a character can be left out. -/
theorem covers_filter {bound : Nat} {c : Char} (hc : c.toNat < bound) (ranges : List Range) :
    covers (ranges.filter fun r => r.first < bound) c = covers ranges c := by
  rw [covers, covers, List.any_filter]
  refine List.any_congr rfl fun r => ?_
  by_cases h : r.first < bound
  · simp [h]
  · have hr : ¬ r.first ≤ c.toNat := by omega
    simp [h, hr]

deriving instance DecidableEq for Range

theorem filter_alphabetic :
    (alphabetic.filter fun r => r.first < 0x100) =
      [⟨0xAA, 0xAA⟩, ⟨0xB5, 0xB5⟩, ⟨0xBA, 0xBA⟩, ⟨0xC0, 0xD6⟩, ⟨0xD8, 0xF6⟩, ⟨0xF8, 0x2C1⟩] := by
  decide +kernel

theorem filter_numeric :
    (numeric.filter fun r => r.first < 0x100) = [⟨0xB2, 0xB3⟩, ⟨0xB9, 0xB9⟩, ⟨0xBC, 0xBE⟩] := by
  decide +kernel

theorem isAlpha_iff (c : Char) :
    c.isAlpha = true ↔ 65 ≤ c.toNat ∧ c.toNat ≤ 90 ∨ 97 ≤ c.toNat ∧ c.toNat ≤ 122 := by
  change (decide (65 ≤ c.val ∧ c.val ≤ 90) ||
    (decide (97 ≤ c.val) && decide (c.val ≤ 122))) = true ↔ _
  simp [UInt32.le_iff_toNat_le]

theorem isDigit_iff (c : Char) : c.isDigit = true ↔ 48 ≤ c.toNat ∧ c.toNat ≤ 57 := by
  simp [Char.isDigit, UInt32.le_iff_toNat_le]

/-- The alphabetic characters of Latin-1 are its letters. -/
theorem isAlphabetic_latin {c : Char} (hc : IsLatin c) : isAlphabetic c = isLatinLetter c := by
  rw [IsLatin] at hc
  rw [Bool.eq_iff_iff]
  by_cases h : c.toNat < 0x80
  · rw [isAlphabetic_of_lt h]
    simp [isLatinLetter, ← Char.toNat_inj, isAlpha_iff]
    omega
  · rw [isAlphabetic, if_neg h, ← covers_filter hc, filter_alphabetic]
    simp [covers, isLatinLetter, ← Char.toNat_inj, isAlpha_iff]
    omega

/-- The numeric characters of Latin-1 are the digits and the other numbers. -/
theorem isNumeric_latin {c : Char} (hc : IsLatin c) :
    isNumeric c = (c.isDigit || isLatinNumber c) := by
  rw [IsLatin] at hc
  rw [Bool.eq_iff_iff]
  by_cases h : c.toNat < 0x80
  · rw [isNumeric_of_lt h]
    simp [isLatinNumber, ← Char.toNat_inj, isDigit_iff]
    omega
  · rw [isNumeric, if_neg h, ← covers_filter hc, filter_numeric]
    simp [covers, isLatinNumber, ← Char.toNat_inj, isDigit_iff]
    omega

end Unicode

namespace TypeScript

open Unicode

/-! ### Names of a script -/

/-- Whether a character of Latin-1 starts a name. -/
def isLatinStart (c : Char) : Bool :=
  c = '_' || c = '$' || isLatinLetter c

/-- Whether a character of Latin-1 continues a name of a script. -/
def isLatinPart (c : Char) : Bool :=
  isLatinStart c || c.isDigit || c = '·'

/-- Whether a character of Latin-1 continues a member name without quotes. -/
def isBarePart (c : Char) : Bool :=
  isLatinStart c || c.isDigit || isLatinNumber c

/-- Whether a text is a name of Latin-1, given what continues a name. -/
def isLatinName (continues : Char → Bool) : List Char → Bool
  | [] => false
  | c :: rest => isLatinStart c && rest.all continues

theorem isIdentifierStart_latin {c : Char} (hc : IsLatin c) :
    isIdentifierStart c = isLatinStart c := by
  rw [isIdentifierStart, isLatinStart, isAlphabetic_latin hc]

theorem isIdentifierPart_latin {c : Char} (hc : IsLatin c) :
    isIdentifierPart c = isBarePart c := by
  rw [isIdentifierPart, isBarePart, isIdentifierStart_latin hc, isNumeric_latin hc, Bool.or_assoc]

/-- **The member names of Latin-1 that stand without quotes.** -/
theorem isIdentifier_latin {name : String} (hname : ∀ c ∈ name.toList, IsLatin c) :
    isIdentifier name = isLatinName isBarePart name.toList := by
  rw [isIdentifier]
  cases h : name.toList with
  | nil => rfl
  | cons c rest =>
    rw [h] at hname
    obtain ⟨hc, hrest⟩ := List.forall_mem_cons.mp hname
    have hparts : rest.all isIdentifierPart = rest.all isBarePart := by
      rw [Bool.eq_iff_iff, List.all_eq_true, List.all_eq_true]
      exact forall₂_congr fun d hd => by rw [isIdentifierPart_latin (hrest d hd)]
    rw [isIdentifierText, isLatinName, isIdentifierStart_latin hc, hparts]

/-- No name of a script holds one of the numbers. -/
theorem isLatinPart_of_isLatinNumber {c : Char} (h : isLatinNumber c = true) :
    isLatinPart c = false := by
  simp only [isLatinNumber, Bool.or_eq_true, decide_eq_true_eq] at h
  rcases h with ((((rfl | rfl) | rfl) | rfl) | rfl) | rfl <;> decide

/-- Of the characters that continue a member name, a script takes all but the numbers. -/
theorem isLatinPart_of_isBarePart {c : Char} (h : isBarePart c = true) :
    isLatinPart c = !isLatinNumber c := by
  cases hnumber : isLatinNumber c with
  | true => rw [isLatinPart_of_isLatinNumber hnumber, Bool.not_true]
  | false =>
    rw [isBarePart, hnumber, Bool.or_false] at h
    rw [isLatinPart, h, Bool.true_or, Bool.not_false]

/-- What stands without quotes is a name of a script exactly if it holds none of the numbers. -/
theorem isLatinName_of_bare {text : List Char} (h : isLatinName isBarePart text = true) :
    isLatinName isLatinPart text = true ↔ ∀ c ∈ text, isLatinNumber c = false := by
  cases text with
  | nil => simp [isLatinName] at h
  | cons c rest =>
    rw [isLatinName, Bool.and_eq_true, List.all_eq_true] at h
    obtain ⟨hstart, hrest⟩ := h
    have hc : isLatinNumber c = false := by
      have hbare : isBarePart c = true := by rw [isBarePart, hstart]; rfl
      have hpart : isLatinPart c = true := by rw [isLatinPart, hstart]; rfl
      simpa [hpart] using isLatinPart_of_isBarePart hbare
    rw [isLatinName, hstart, Bool.true_and, List.all_eq_true, List.forall_mem_cons,
      and_iff_right hc]
    exact forall₂_congr fun d hd => by simp [isLatinPart_of_isBarePart (hrest d hd)]

/-! ### Member names -/

/-- Whether a script can read a member name of Latin-1 as it is written: as a literal, or as a
name. -/
def IsLegal (name : String) : Prop :=
  memberName name = Text.literal name ∨ isLatinName isLatinPart (memberName name).toList = true

/-- A member name that stands without quotes is no literal. -/
theorem memberName_ne_literal {name : String} (h : isIdentifier name = true) :
    memberName name ≠ Text.literal name := by
  intro heq
  obtain ⟨c, rest, hname, hstart⟩ := exists_cons_memberName name
  rw [if_pos h] at hstart
  rw [heq, Text.toList_literal] at hname
  obtain ⟨rfl, -⟩ := List.cons.inj hname
  exact absurd hstart (by decide)

/-- **Exactly which member names of Latin-1 a script can read.** A name stands without quotes if it
starts with a letter, a dollar sign or an underscore and goes on with these, digits and other
numbers; any other is written as a literal. A script can read it unless it stands without quotes and
holds one of the numbers that are no digits. -/
theorem memberName_latin {name : String} (hname : ∀ c ∈ name.toList, IsLatin c) :
    memberName name =
        (if isLatinName isBarePart name.toList then name else Text.literal name) ∧
      (IsLegal name ↔
        ¬ (isLatinName isBarePart name.toList = true ∧
          ∃ c ∈ name.toList, isLatinNumber c = true)) := by
  have hspelling := isIdentifier_latin hname
  refine ⟨by rw [memberName, hspelling], ?_⟩
  cases hbare : isLatinName isBarePart name.toList with
  | true =>
    have hident := hspelling.trans hbare
    rw [IsLegal, or_iff_right (memberName_ne_literal hident), memberName_of_isIdentifier hident,
      isLatinName_of_bare hbare]
    simp
  | false =>
    have hident : ¬ isIdentifier name = true := by simp [hspelling, hbare]
    exact iff_of_true (.inl (memberName_of_not_isIdentifier hident)) (by simp)

/-- A name with a micro sign and a digit can be read. One with a raised digit cannot, although it
stands without quotes. -/
theorem memberName_latin_raised :
    (∀ name ∈ ["µ1", "m²"], ∀ c ∈ name.toList, IsLatin c) ∧
      memberName "µ1" = "µ1" ∧ IsLegal "µ1" ∧ memberName "m²" = "m²" ∧ ¬ IsLegal "m²" := by
  have hmicro : ∀ c ∈ "µ1".toList, IsLatin c := by simp [IsLatin]
  have hraised : ∀ c ∈ "m²".toList, IsLatin c := by simp [IsLatin]
  obtain ⟨hmicro_text, hmicro_legal⟩ := memberName_latin hmicro
  obtain ⟨hraised_text, hraised_legal⟩ := memberName_latin hraised
  refine ⟨List.forall_mem_cons.mpr ⟨hmicro, List.forall_mem_singleton.mpr hraised⟩, hmicro_text, ?_,
    hraised_text, ?_⟩
  · simp [hmicro_legal, isLatinNumber]
  · rw [hraised_legal]
    exact not_not_intro ⟨by decide, '²', by simp, by decide⟩

/-- A member name that stands without quotes need not be a name of a script. -/
theorem not_every_memberName_legal :
    ¬ ∀ name : String, (∀ c ∈ name.toList, IsLatin c) → IsLegal name := by
  intro h
  have hlatin : ∀ c ∈ "m²".toList, IsLatin c := by simp [IsLatin]
  have hident : isIdentifier "m²" = true := by rw [isIdentifier_latin hlatin]; decide
  rcases h "m²" hlatin with hliteral | hpart
  · exact memberName_ne_literal hident hliteral
  · rw [memberName_of_isIdentifier hident] at hpart
    exact absurd hpart (by decide)

end TypeScript

end SchemaTypes
