import SchemaTypes.Found
import SchemaTypes.Json.Token
import SchemaTypes.Toml.Value

/-!
# TOML numbers, truth values and moments

A word without quotes is a truth value, a number, or a moment: a date, a time or both.

The form of a number is settled by few characters of it. Underscores must stand between digits, and
a fraction and an exponent need digits. An integer with underscores is not looked at further until
its value is wanted, and only then has to be made of digits and to fit the machine. The same holds
of the size of any number.

## Main definitions

* `Toml.integer?`, `Toml.basedInteger?`, `Toml.floating?`: the values of numbers by their forms
* `Toml.isMoment`: dates and times
* `Toml.readWord?`: the value of a word
-/

namespace SchemaTypes

namespace Toml

/-! ### Digits -/

/-- Whether a character is a digit of an integer in any base. -/
def isAnyDigit (c : Char) : Bool :=
  (Json.hexValue? c).isSome

/-- Whether every underscore has a digit on either side. `previous` tells whether the character
before the text counts as one. -/
def isSpaced (isDigit : Char → Bool) (previous : Bool) : List Char → Bool
  | [] => true
  | c :: rest =>
    if c = '_' then previous && rest.head?.any isDigit && isSpaced isDigit false rest
    else isSpaced isDigit (isDigit c) rest

/-- The characters of a number that count. -/
def withoutSpacing (text : List Char) : List Char :=
  text.filter (· ≠ '_')

/-- The number that digits stand for in a base. -/
def valueOf (base : Nat) (digits : List Char) : Nat :=
  digits.foldl (fun value c => value * base + (Json.hexValue? c).getD 0) 0

/-- Whether a text starts with a zero that is not all of it. -/
def hasLeadingZero (text : List Char) : Bool :=
  text.head? = some '0' && 1 < text.length

/-! ### Integers -/

/-- The integers that can be held: those of a hundred and twenty-eight bits, signed or not. -/
def inRange (n : Int) : Bool :=
  -Int.pow 2 127 ≤ n && n < Int.pow 2 128

/-- An integer by its sign and the characters of its digits. -/
def held (base : Nat) (isDigit : Char → Bool) (negative : Bool) (digits : List Char) : Value :=
  let magnitude : Int := valueOf base digits
  let value := if negative then -magnitude else magnitude
  if !digits.isEmpty && digits.all isDigit && inRange value then .integer value else .unheld true

/-- A decimal integer behind its sign, of which the underscores have been looked at. -/
def integer? (negative : Bool) (body : List Char) : Option Value :=
  if hasLeadingZero body then none
  else some (held 10 Char.isDigit negative (withoutSpacing body))

/-- An integer in the base of a power of two, behind the mark of the base. It may lack digits. -/
def basedInteger? (base : Nat) (isDigit : Char → Bool) (digits : List Char) : Option Value :=
  if (withoutSpacing digits).all isDigit && isSpaced isAnyDigit false digits then
    some (held base isDigit false (withoutSpacing digits))
  else none

/-- An integer that starts with the mark of a base. -/
def markedInteger? (text : List Char) : Option Value :=
  match text with
  | '0' :: 'x' :: digits => basedInteger? 16 isAnyDigit digits
  | '0' :: 'o' :: digits => basedInteger? 8 (fun c => '0' ≤ c && c ≤ '7') digits
  | '0' :: 'b' :: digits => basedInteger? 2 (fun c => c = '0' || c = '1') digits
  | _ => none

/-! ### Floating point numbers -/

/-- Floating point numbers are shown with a point among the digits, whatever their size. -/
def floatFormat : Decimal.Format where
  plainFrom := -400
  plainTo := 400
  tie := .upward

/-- A floating point number by its sign. Too large a magnitude cannot be held. -/
def ofMagnitude (negative : Bool) (magnitude : Float) : Value :=
  if magnitude.isInf then .unheld false
  else .floating (floatFormat.render (.ofFloat (if negative then -magnitude else magnitude)))

/-- A floating point number that is made of the digits in front of the point and behind it, and an
exponent. It lies below ten to the power of `top`, but not below a tenth of that, so a number far
out of range need not be computed. -/
def heldFloating (negative : Bool) (whole fraction : List Char) (exponent : Int) : Value :=
  let digits := (whole ++ fraction).dropWhile (· = '0')
  let scale := exponent - fraction.length
  let top := digits.length + scale
  if digits.isEmpty ∨ top < -400 then ofMagnitude negative 0
  else if 400 < top then .unheld false
  else ofMagnitude negative (Float.ofScientific (valueOf 10 digits) (scale < 0) scale.natAbs)

/-- Whether a character is a digit or an underscore. -/
def isSpacedDigit (c : Char) : Bool :=
  c.isDigit || c = '_'

/-- The digits at the start of a text, of which there must be one, and what follows. -/
def digits? (text : List Char) : Option (List Char × List Char) :=
  let digits := withoutSpacing (text.takeWhile isSpacedDigit)
  if digits.isEmpty then none else some (digits, text.dropWhile isSpacedDigit)

/-- The digits behind the point at the start of a text, if there is one, and what follows. -/
def fraction? (text : List Char) : Option (List Char × List Char) :=
  if text.head? = some '.' then digits? (text.drop 1) else some ([], text)

/-- The sign of a number, if it has one, and what follows it. -/
def signed (text : List Char) : Option Bool × List Char :=
  match text with
  | '-' :: rest => (some true, rest)
  | '+' :: rest => (some false, rest)
  | _ => (none, text)

/-- The exponent at the start of a text, if there is one, and what follows. Zeros in front of it are
allowed. -/
def exponent? (text : List Char) : Option (Int × List Char) :=
  if text.head? = some 'e' ∨ text.head? = some 'E' then
    let (sign, body) := signed (text.drop 1)
    (digits? body).map fun (digits, rest) =>
      (if sign = some true then -(valueOf 10 digits : Int) else valueOf 10 digits, rest)
  else some (0, text)

/-- A floating point number behind its sign: digits with a fraction, an exponent or both. -/
def floating? (negative : Bool) (body : List Char) : Option Value := do
  let (whole, behindWhole) ← digits? body
  if body.head? = some '0' ∧ 1 < whole.length then none
  else
    let (fraction, behindFraction) ← fraction? behindWhole
    let (exponent, rest) ← exponent? behindFraction
    if rest.isEmpty then some (heldFloating negative whole fraction exponent) else none

/-! ### Moments -/

/-- The number in exactly `count` digits at the start of a text, and what follows. -/
def fixedDigits? (count : Nat) (text : List Char) : Option (Nat × List Char) :=
  let digits := text.take count
  if digits.length = count ∧ digits.all Char.isDigit then
    some (valueOf 10 digits, text.drop count)
  else none

/-- What follows a character at the start of a text. -/
def expect? (c : Char) (text : List Char) : Option (List Char) :=
  if text.head? = some c then some (text.drop 1) else none

/-- The number of days of a month. -/
def daysOf (year month : Nat) : Nat :=
  let leap := year % 4 = 0 ∧ (year % 100 ≠ 0 ∨ year % 400 = 0)
  if month = 2 then (if leap then 29 else 28)
  else if month = 4 ∨ month = 6 ∨ month = 9 ∨ month = 11 then 30
  else 31

/-- What follows a date at the start of a text. -/
def afterDate? (text : List Char) : Option (List Char) := do
  let (year, text) ← fixedDigits? 4 text
  let text ← expect? '-' text
  let (month, text) ← fixedDigits? 2 text
  let text ← expect? '-' text
  let (day, text) ← fixedDigits? 2 text
  if 1 ≤ month ∧ month ≤ 12 ∧ 1 ≤ day ∧ day ≤ daysOf year month then some text else none

/-- What follows a time at the start of a text. The seconds may be left out. -/
def afterTime? (text : List Char) : Option (List Char) := do
  let (hour, text) ← fixedDigits? 2 text
  let text ← expect? ':' text
  let (minute, text) ← fixedDigits? 2 text
  if 24 ≤ hour ∨ 60 ≤ minute then none
  else
    match expect? ':' text with
    | none => some text
    | some text => do
      let (second, text) ← fixedDigits? 2 text
      if 60 < second then none
      else
        match expect? '.' text with
        | none => some text
        | some text =>
          let rest := text.dropWhile Char.isDigit
          if rest.length = text.length then none else some rest

/-- Whether a text is an offset from universal time, or empty. -/
def isOffset (text : List Char) : Bool :=
  match text with
  | [] => true
  | c :: rest =>
    if c = 'Z' ∨ c = 'z' then rest.isEmpty
    else if c = '+' ∨ c = '-' then
      let after := do
        let (hour, rest) ← fixedDigits? 2 rest
        let rest ← expect? ':' rest
        let (minute, rest) ← fixedDigits? 2 rest
        if hour < 24 ∧ minute < 60 then some rest else none
      after = some []
    else false

/-- Whether a text is a date, a time, or a date and a time with or without an offset. -/
def isMoment (text : List Char) : Bool :=
  match afterDate? text with
  | some [] => true
  | some (c :: rest) =>
    (c = 'T' || c = 't' || c = ' ') && ((afterTime? rest).map isOffset).getD false
  | none => afterTime? text = some []

/-! ### Words -/

/-- The value of a number behind its sign. It starts with a digit, or with an underscore that the
sign precedes. What follows the first digits settles its form. -/
def number? (sign : Option Bool) (body : List Char) : Option Value :=
  let negative := sign = some true
  let rest := body.dropWhile Char.isDigit
  let starts := body.head?.any fun c => c.isDigit || (c = '_' && sign.isSome)
  if !starts then none
  else if rest.any fun c => c = '.' || c = 'e' || c = 'E' then
    if isSpaced Char.isDigit sign.isSome body then floating? negative body else none
  else if rest.isEmpty || rest.head? = some '_' then
    if isSpaced isAnyDigit sign.isSome body then integer? negative body else none
  else none

/-- Whether a text starts as a moment does: with digits and a dash or a colon behind them. -/
def startsMoment (text : List Char) : Bool :=
  let rest := text.dropWhile Char.isDigit
  rest.length < text.length && (rest.head? = some '-' || rest.head? = some ':')

/-- The value of a word without quotes. -/
def readWord? (text : List Char) : Option Value :=
  let (sign, body) := signed text
  if text = ['t', 'r', 'u', 'e'] then some (.boolean true)
  else if text = ['f', 'a', 'l', 's', 'e'] then some (.boolean false)
  else if body = ['i', 'n', 'f'] then
    some (.floating (if sign = some true then "-inf" else "inf"))
  else if body = ['n', 'a', 'n'] then some (.floating "NaN")
  else if startsMoment text then (if isMoment text then some .moment else none)
  else (markedInteger? text).or (number? sign body)

end Toml

end SchemaTypes
