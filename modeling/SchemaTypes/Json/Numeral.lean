import SchemaTypes.Json.Value

/-!
# Numerals

A numeral is a sign, digits, a fraction and an exponent. It stands for an integer when it has
neither fraction nor exponent and fits sixty-four bits, otherwise for a floating point number.

## Main definitions

* `Json.Numeral`: the parts of a numeral
* `Json.Numeral.scan`: the numeral at the start of a text
* `Json.Numeral.number`: the number a numeral stands for

## Implementation notes

A significand keeps the digits that fit sixty-four bits. Once a digit of the whole part does not
fit, the rest of that part only counts towards the exponent; a fraction starts over and keeps what
fits again.
-/

namespace SchemaTypes

namespace Json

/-- The exponent of a numeral. `offset` counts the characters of the numeral before its digits. -/
structure Exponent where
  negative : Bool
  digits : List Nat
  offset : Nat

/-- The parts of a numeral. `width` counts its characters. -/
structure Numeral where
  negative : Bool
  whole : List Nat
  fraction : List Nat
  exponent : Option Exponent
  isInteger : Bool
  width : Nat

/-- Where a numeral breaks off: the characters read by then, and whether the text ends there. -/
structure Broken where
  offset : Nat
  atEnd : Bool

namespace Numeral

/-! ### Scanning -/

/-- The value of a digit. -/
def digitValue (c : Char) : Nat :=
  c.toNat - 0x30

/-- The digits at the start of a text. -/
def digitsOf (text : List Char) : List Nat :=
  (text.takeWhile Char.isDigit).map digitValue

/-- What follows the digits at the start of a text. -/
def afterDigits (text : List Char) : List Char :=
  text.dropWhile Char.isDigit

/-- Digits that must be there, behind `offset` characters. A character that is no digit is counted
as read. -/
def requireDigits (offset : Nat) (text : List Char) : Except Broken (List Nat) :=
  match text with
  | [] => .error ⟨offset, true⟩
  | c :: _ => if c.isDigit then .ok (digitsOf text) else .error ⟨offset + 1, false⟩

/-- The exponent at the start of a text, behind `offset` characters, if there is one. -/
def scanExponent (offset : Nat) (text : List Char) : Except Broken (Option Exponent) :=
  match text with
  | [] => .ok none
  | c :: rest =>
    if c = 'e' ∨ c = 'E' then
      match rest with
      | s :: more =>
        if s = '+' ∨ s = '-' then
          (requireDigits (offset + 2) more).map fun ds => some ⟨s = '-', ds, offset + 2⟩
        else (requireDigits (offset + 1) rest).map fun ds => some ⟨false, ds, offset + 1⟩
      | [] => .error ⟨offset + 1, true⟩
    else .ok none

/-- The numeral behind its sign and whole part, of which `offset` characters have been read. -/
def scanTail (negative : Bool) (whole : List Nat) (offset : Nat) (text : List Char) :
    Except Broken Numeral := do
  let finish (fraction : List Nat) (offset : Nat) (hasFraction : Bool) (rest : List Char) := do
    let exponent ← scanExponent offset rest
    let width := exponent.elim offset fun e => e.offset + e.digits.length
    .ok ⟨negative, whole, fraction, exponent, !hasFraction && exponent.isNone, width⟩
  match text with
  | c :: rest =>
    if c = '.' then do
      let fraction ← requireDigits (offset + 1) rest
      finish fraction (offset + 1 + fraction.length) true (afterDigits rest)
    else finish [] offset false text
  | [] => finish [] offset false []

/-- The numeral at the start of a text that begins with a minus sign or a digit. A zero at its
start stands alone. -/
def scan (text : List Char) : Except Broken Numeral := do
  let negative := text.head? = some '-'
  let offset := if negative then 1 else 0
  let body := text.drop offset
  let whole ← requireDigits offset body
  if whole.head? = some 0 ∧ 1 < whole.length then .error ⟨offset + 2, false⟩
  else scanTail negative whole (offset + whole.length) (afterDigits body)

/-! ### The number -/

/-- A significand that keeps digits as long as it fits sixty-four bits, and the number of digits
that did not fit. -/
def keepDigits (significand : Nat) : List Nat → Nat × Nat
  | [] => (significand, 0)
  | d :: ds =>
    if significand * 10 + d < Nat.pow 2 64 then keepDigits (significand * 10 + d) ds
    else (significand, ds.length + 1)

/-- The value of the digits of an exponent. Fails, with the number of digits read, once it is
beyond thirty-one bits. -/
def exponentValue (value read : Nat) : List Nat → Except Nat Nat
  | [] => .ok value
  | d :: ds =>
    if value * 10 + d < Nat.pow 2 31 then exponentValue (value * 10 + d) (read + 1) ds
    else .error (read + 1)

/-- A floating point number, or the characters read when it was found too large. -/
def floating (negative : Bool) (significand : Nat) (exponent : Int) (width : Nat) :
    Except Nat Number :=
  match Decimal.Binary64.ofDecimal? negative significand exponent with
  | some x => .ok (.floating x)
  | none => .error width

/-- The number a numeral stands for, or the characters read when it was found too large. Negative
zero is a floating point number. -/
def number (n : Numeral) : Except Nat Number :=
  let (whole, dropped) := keepDigits 0 n.whole
  if n.isInteger ∧ dropped = 0 ∧ (!n.negative ∨ (0 < whole ∧ whole ≤ Nat.pow 2 63)) then
    .ok (.integer (if n.negative then -(whole : Int) else whole))
  else
    let (significand, lost) := keepDigits whole n.fraction
    let scale := (dropped : Int) - ((n.fraction.length : Int) - lost)
    match n.exponent with
    | none => floating n.negative significand scale n.width
    | some e =>
      match exponentValue 0 0 e.digits with
      | .ok value =>
        let signed := if e.negative then -(value : Int) else value
        floating n.negative significand (scale + signed) n.width
      | .error read =>
        if significand ≠ 0 ∧ !e.negative then .error (e.offset + read)
        else floating n.negative 0 0 n.width

end Numeral

end Json

end SchemaTypes
