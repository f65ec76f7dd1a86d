import SchemaTypes.TypeScript.Declaration
import SchemaTypes.Proofs.Decimal.Format
import SchemaTypes.Proofs.TypeScript.Naming
import Mathlib.Algebra.Ring.Parity
import Mathlib.Data.List.DropRight

/-!
# Spellings read back

A name or a value is written in one of two spellings: between quotes with escapes, or as it is. Text
from outside must not get out of its quotes, and two texts must not be written alike. Both follow
from how a literal is read. A quote ends a literal unless it is escaped, and it is escaped if the
run of backslashes in front of it has an odd length. Escaping puts a backslash in front of every
quote, but it doubles backslashes as well, so it is not the backslash next to the quote that counts
but the whole run.

## Main definitions

* `Text.backslashes`: the run of backslashes that characters end in
* `Text.isPending`: whether what has been read leaves the next character escaped
* `Text.Encloses`: a literal that stands for a text
* `TypeScript.StandsFor`: a spelling that stands for a text

## Main results

* `Text.isPending_iff`: the next character is escaped behind a run of odd length
* `Text.isPending_of_flatMap_eq`: every quote inside a literal is escaped
* `Text.encloses_literal`: a literal stands for its text
* `TypeScript.spellings_decode`: names and values decode uniquely and stay on their line
-/

namespace SchemaTypes

namespace Text

/-! ### Escaped quotes -/

/-- The length of the run of backslashes that characters end in. -/
def backslashes (read : List Char) : Nat :=
  (read.rtakeWhile (· = '\\')).length

/-- Whether the next character is escaped, after one more has been read. -/
def escapesNext (escaped : Bool) (c : Char) : Bool :=
  !escaped && c = '\\'

/-- Whether the next character is escaped, after some have been read. -/
def isPending (read : List Char) : Bool :=
  read.foldl escapesNext false

/-- It is the length of the run that decides. -/
theorem isPending_iff (read : List Char) : isPending read = true ↔ Odd (backslashes read) := by
  induction read using List.reverseRecOn with
  | nil => simp [isPending, backslashes]
  | append_singleton front c ih =>
    have hstep : isPending (front ++ [c]) = escapesNext (isPending front) c := by
      rw [isPending, List.foldl_append]
      rfl
    rw [hstep, escapesNext, backslashes]
    by_cases hc : c = '\\'
    · have hrun : (front ++ [c]).rtakeWhile (· = '\\') = front.rtakeWhile (· = '\\') ++ [c] :=
        List.rtakeWhile_concat_pos _ _ _ (decide_eq_true hc)
      rw [hrun, List.length_append, List.length_singleton, Nat.odd_add_one, ← backslashes, ← ih]
      simp [hc]
    · have hrun : (front ++ [c]).rtakeWhile (· = '\\') = [] :=
        List.rtakeWhile_concat_neg _ _ _ (by simpa using hc)
      rw [hrun]
      simp [hc]

theorem isPending_append {front : List Char} (h : isPending front = false) (back : List Char) :
    isPending (front ++ back) = isPending back := by
  rw [isPending, List.foldl_append, ← isPending, h]
  rfl

theorem isPending_of_notMem {read : List Char} (h : '\\' ∉ read) : isPending read = false := by
  induction read with
  | nil => rfl
  | cons c rest ih =>
    obtain ⟨hc, hrest⟩ := not_or.mp (mt List.mem_cons.mpr h)
    have hfirst : isPending [c] = false := decide_eq_false (Ne.symm hc)
    rw [← List.singleton_append, isPending_append hfirst, ih hrest]

theorem notMem_hexDigit {n : Nat} (h : n < 16) : hexDigit n ≠ '"' ∧ hexDigit n ≠ '\\' := by
  have hall : ∀ i : Fin 16, hexDigit i ≠ '"' ∧ hexDigit i ≠ '\\' := by decide
  exact hall ⟨n, h⟩

/-- A character stands for itself, or a backslash escapes a letter and digits may follow. -/
theorem escape_shape (c : Char) :
    (escape c = [c] ∧ c ≠ '"' ∧ c ≠ '\\') ∨
      ∃ letter digits, escape c = '\\' :: letter :: digits ∧ '"' ∉ digits ∧ '\\' ∉ digits := by
  by_cases hquote : c = '"'
  · exact .inr ⟨'"', [], by rw [escape, if_pos hquote], List.not_mem_nil, List.not_mem_nil⟩
  by_cases hbackslash : c = '\\'
  · exact .inr ⟨'\\', [], by rw [escape, if_neg hquote, if_pos hbackslash], List.not_mem_nil,
      List.not_mem_nil⟩
  rw [escape, if_neg hquote, if_neg hbackslash]
  iterate 5
    split
    · exact .inr ⟨_, [], rfl, List.not_mem_nil, List.not_mem_nil⟩
  split
  · next hcontrol =>
    have hhigh := notMem_hexDigit (show c.toNat / 16 < 16 by omega)
    have hlow := notMem_hexDigit (show c.toNat % 16 < 16 by omega)
    refine .inr ⟨_, _, rfl, ?_, ?_⟩
    · simp [hhigh.1.symm, hlow.1.symm]
    · simp [hhigh.2.symm, hlow.2.symm]
  · exact .inl ⟨rfl, hquote, hbackslash⟩

theorem isPending_escape (c : Char) : isPending (escape c) = false := by
  rcases escape_shape c with ⟨hself, -, hbackslash⟩ | ⟨letter, digits, hescape, -, hdigits⟩
  · rw [hself]
    exact isPending_of_notMem (by simpa using Ne.symm hbackslash)
  · have hletter : isPending ['\\', letter] = false := rfl
    rw [hescape]
    exact (isPending_append hletter digits).trans (isPending_of_notMem hdigits)

/-- A quote in an escaped character is the letter behind the backslash. -/
theorem isPending_of_escape_eq {c : Char} {front back : List Char}
    (h : escape c = front ++ '"' :: back) : isPending front = true := by
  rcases escape_shape c with ⟨hself, hquote, -⟩ | ⟨letter, digits, hescape, hdigits, -⟩
  · rw [hself] at h
    have hmem : '"' ∈ [c] := h ▸ List.mem_append_right _ List.mem_cons_self
    exact absurd (List.mem_singleton.mp hmem).symm hquote
  · rw [hescape] at h
    match front with
    | [] => exact absurd (List.cons.inj h).1 (by decide)
    | [d] =>
      obtain rfl := (List.cons.inj h).1
      rfl
    | d :: e :: front =>
      have hrest : digits = front ++ '"' :: back := (List.cons.inj (List.cons.inj h).2).2
      exact absurd (hrest ▸ List.mem_append_right _ List.mem_cons_self) hdigits

theorem isPending_flatMap (text : List Char) : isPending (text.flatMap escape) = false := by
  induction text with
  | nil => rfl
  | cons c rest ih => rw [List.flatMap_cons, isPending_append (isPending_escape c), ih]

/-- Every quote among escaped characters is escaped. -/
theorem isPending_of_flatMap_eq {text front back : List Char}
    (h : text.flatMap escape = front ++ '"' :: back) : isPending front = true := by
  induction text generalizing front with
  | nil => simp at h
  | cons c rest ih =>
    rw [List.flatMap_cons] at h
    rcases List.append_eq_append_iff.mp h with ⟨mid, rfl, hrest⟩ | ⟨mid, hescape, hmid⟩
    · rw [isPending_append (isPending_escape c)]
      exact ih hrest
    · cases mid with
      | nil =>
        -- nothing is escaped where the next character starts
        have hstart : isPending [] = true := ih hmid.symm
        exact absurd hstart Bool.false_ne_true
      | cons d mid =>
        obtain rfl := (List.cons.inj hmid).1
        exact isPending_of_escape_eq hescape

/-! ### Literals -/

/-- A literal that stands for a text. Between its quotes there are no control characters, every
quote is escaped, and the quote at the end is not. Reading what stands between them gives the text
back, and stops at the quote at the end whatever follows. -/
structure Encloses (written : String) (inside : List Char) (text : String) : Prop where
  quotes : written.toList = '"' :: (inside ++ ['"'])
  printed : ∀ c ∈ inside, 0x20 ≤ c.toNat
  escaped : ∀ front back, inside = front ++ '"' :: back → Odd (backslashes front)
  closed : Even (backslashes inside)
  reads : ∀ pos rest, Json.readText 0 pos (inside ++ '"' :: rest) = .ok text.toList
  stops : ∀ pos rest, ∃ stop, Json.checkText 0 pos 0 (inside ++ '"' :: rest) =
    .ok (stop, inside.length + 1)

/-- **A literal stands for its text.** -/
theorem encloses_literal (text : String) :
    Encloses (literal text) (text.toList.flatMap escape) text where
  quotes := toList_literal text
  printed c hc := by
    obtain ⟨d, -, hd⟩ := List.mem_flatMap.mp hc
    exact le_of_mem_escape hd
  escaped _ _ h := (isPending_iff _).mp (isPending_of_flatMap_eq h)
  closed := by
    rw [← Nat.not_odd_iff_even, ← isPending_iff, isPending_flatMap]
    exact Bool.false_ne_true
  reads pos rest := Json.readText_literal pos text.toList rest
  stops pos rest := by
    obtain ⟨stop, hstop⟩ := Json.checkText_literal pos 0 text.toList rest
    rw [Nat.zero_add] at hstop
    exact ⟨stop, hstop⟩

/-- A backslash and a quote come to a run of three backslashes in front of the quote. -/
example : (literal "\\\"").toList = ['"', '\\', '\\', '\\', '"', '"'] := by
  decide

end Text

namespace TypeScript

open Text

/-! ### Spellings -/

/-- A spelling that stands for a text: it is a literal for the text, or the text as it is, without
any quote. Either way it holds no control character, so it breaks no line. -/
structure StandsFor (written text : String) : Prop where
  spelling : (∃ inside, Encloses written inside text) ∨ written = text ∧ '"' ∉ text.toList
  printed : ∀ c ∈ written.toList, 0x20 ≤ c.toNat

theorem standsFor_literal (text : String) : StandsFor (literal text) text where
  spelling := .inl ⟨_, encloses_literal text⟩
  printed _ := le_of_mem_literal

theorem le_toNat_of_controls {p : Char → Bool} (h : ∀ code : Fin 0x20, p (Char.ofNat code) = false)
    {c : Char} (hc : p c = true) : 0x20 ≤ c.toNat := by
  refine Nat.le_of_not_lt fun hlt => ?_
  have hcontrol := h ⟨c.toNat, hlt⟩
  rw [Char.ofNat_toNat, hc] at hcontrol
  exact Bool.noConfusion hcontrol

theorem standsFor_memberName (name : String) : StandsFor (memberName name) name := by
  by_cases h : isIdentifier name = true
  · rw [memberName_of_isIdentifier h]
    exact ⟨.inr ⟨rfl, notMem_of_isIdentifier h (by decide)⟩,
      fun c hc => le_toNat_of_controls (by decide) (isIdentifierPart_of_mem h c hc)⟩
  · rw [memberName_of_not_isIdentifier h]
    exact standsFor_literal name

theorem standsFor_render (number : Json.Number) : StandsFor number.render number.render where
  spelling := .inr ⟨rfl, fun h => absurd (number.isNumeral_render _ h) (by decide)⟩
  printed c hc := le_toNat_of_controls (by decide) (number.isNumeral_render c hc)

theorem standsFor_literalOf (value : Schema.EnumValue) :
    StandsFor (literalOf value) value.display := by
  cases value with
  | text value => exact standsFor_literal value
  | number value => exact standsFor_render value
  | boolean value => exact standsFor_literal _

/-- **Names and values decode uniquely.** A literal stands for its text, two member names that are
written alike are the same, and none of those in quotes is written like one of those without. What
is written for a property key or for the value of an enum stands for it, so that none of them gets
out of its quotes or off its line. -/
theorem spellings_decode :
    (∀ text, ∃ inside, Encloses (literal text) inside text) ∧
      Function.Injective memberName ∧
      (∀ a b, isIdentifier a = true → isIdentifier b = false → memberName a ≠ memberName b) ∧
      (∀ key, StandsFor (memberName key) key) ∧
      ∀ value, StandsFor (literalOf value) value.display := by
  refine ⟨fun text => ⟨_, encloses_literal text⟩, memberName_injective, fun a b ha hb h => ?_,
    standsFor_memberName, standsFor_literalOf⟩
  obtain rfl := memberName_injective h
  exact absurd (ha.symm.trans hb) (by decide)

end TypeScript

end SchemaTypes
