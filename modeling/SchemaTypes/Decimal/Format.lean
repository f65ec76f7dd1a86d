import SchemaTypes.Decimal.Integer
import SchemaTypes.Decimal.Shortest

/-!
# Writing a decimal

The digits of a number are laid out by a record of decisions: which exponents are written with a
point among the digits, and how an exponent is written where it is not.

## Main definitions

* `Decimal.Format`: the decisions
* `Decimal.Format.render`: a number in that format
-/

namespace SchemaTypes

namespace Decimal

/-- How a number is written. The exponent meant is that of the leading digit. -/
structure Format where
  /-- the least exponent written with a point among the digits -/
  plainFrom : Int
  /-- the greatest exponent written with a point among the digits -/
  plainTo : Int
  /-- which of two equally near shortest decimals is written -/
  tie : Tie

namespace Format

/-- A point among the digits, with a zero on a side that has none of its own. The leading digit
has the exponent `lead`. -/
def plain (digits : List Char) (lead : Int) : List Char :=
  if lead < 0 then '0' :: '.' :: (List.replicate (-lead - 1).toNat '0' ++ digits)
  else
    let whole := lead.toNat + 1
    if digits.length ≤ whole then
      digits ++ List.replicate (whole - digits.length) '0' ++ ['.', '0']
    else digits.take whole ++ '.' :: digits.drop whole

/-- One digit before the point and a signed exponent. -/
def scientific (digits : List Char) (lead : Int) : List Char :=
  let fraction := if digits.length ≤ 1 then [] else '.' :: digits.drop 1
  let sign := if lead < 0 then '-' else '+'
  digits.take 1 ++ fraction ++ ['e', sign] ++ Decimal.digits lead.natAbs

/-- The magnitude of a number in the format. -/
def renderMagnitude (format : Format) (x : Binary) : List Char :=
  if x.m = 0 then ['0', '.', '0']
  else
    let shortest := (x.shortest format.tie).strip 400
    let digits := Decimal.digits shortest.value
    let lead := shortest.exponent + digits.length - 1
    if format.plainFrom ≤ lead ∧ lead ≤ format.plainTo then plain digits lead
    else scientific digits lead

/-- A number in the format. Negative zero keeps its sign. -/
def render (format : Format) (x : Binary64) : String :=
  String.ofList ((if x.isNegative then ['-'] else []) ++ format.renderMagnitude x.magnitude)

end Format

end Decimal

end SchemaTypes
