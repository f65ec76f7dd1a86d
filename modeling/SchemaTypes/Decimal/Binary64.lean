/-!
# Binary floating point numbers

A number of the format binary64 is held as its sixty-four bits, so that two of them are equal when
their bits are. Every number here is finite.

## Main definitions

* `Decimal.Binary64`: a number, as its bits
* `Decimal.Binary64.ofDecimal?`: the number a decimal significand and exponent stand for

## Implementation notes

A decimal is read in steps that each round once: the significand becomes the nearest binary number,
which is then multiplied or divided by powers of ten. The result can differ from the number nearest
to the decimal in its last bits. The largest power of ten in range is `10 ^ 308`, so an exponent
below `-308` takes several divisions.
-/

namespace SchemaTypes

namespace Decimal

/-- A number of the format binary64, as its bits. -/
structure Binary64 where
  bits : UInt64
deriving DecidableEq

namespace Binary64

/-- The bits of a machine number. -/
def ofFloat (x : Float) : Binary64 :=
  ⟨x.toBits⟩

/-- Whether the sign bit is set. It is for negative zero. -/
def isNegative (x : Binary64) : Bool :=
  x.bits >>> 63 == 1

/-! ### Reading a decimal -/

/-- The power of ten with the given exponent, rounded to nearest. -/
def powerOfTen (exponent : Nat) : Float :=
  Float.ofScientific 1 false exponent

/-- Divides by ten `exponent` times, by at most `10 ^ 308` a step. -/
def scaleDown (x : Float) (exponent : Nat) : Float :=
  if exponent ≤ 308 then x / powerOfTen exponent
  else if x == 0 then x
  else scaleDown (x / powerOfTen 308) (exponent - 308)
termination_by exponent

/-- Multiplies by `10 ^ exponent`, and fails when the result is too large for the format. -/
def scaleUp? (x : Float) (exponent : Nat) : Option Float :=
  if exponent ≤ 308 then
    let scaled := x * powerOfTen exponent
    if scaled.isInf then none else some scaled
  else if x == 0 then some x
  else none

/-- The number that `significand * 10 ^ exponent` stands for, with the given sign. There is none
when it is too large for the format; what is too small becomes zero. -/
def ofDecimal? (negative : Bool) (significand : Nat) (exponent : Int) : Option Binary64 :=
  let x := significand.toUInt64.toFloat
  let magnitude :=
    if exponent < 0 then some (scaleDown x exponent.natAbs) else scaleUp? x exponent.natAbs
  magnitude.map fun y => ofFloat (if negative then -y else y)

end Binary64

end Decimal

end SchemaTypes
