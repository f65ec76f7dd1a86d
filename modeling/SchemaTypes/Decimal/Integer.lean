/-!
# Writing an integer

## Main definitions

* `Decimal.digits`: the decimal digits of a natural number
* `Decimal.natText`, `Decimal.intText`: a number with no more digits than it needs
-/

namespace SchemaTypes

namespace Decimal

/-- The decimal digits of a natural number, the most significant first. -/
def digits (n : Nat) : List Char :=
  Nat.toDigits 10 n

/-- A natural number in decimal digits. -/
def natText (n : Nat) : String :=
  String.ofList (digits n)

/-- An integer in decimal digits, with a minus sign in front of a negative one. -/
def intText (n : Int) : String :=
  if n < 0 then "-" ++ natText n.natAbs else natText n.natAbs

end Decimal

end SchemaTypes
