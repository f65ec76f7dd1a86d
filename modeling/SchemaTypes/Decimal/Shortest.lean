import SchemaTypes.Decimal.Binary64

/-!
# The shortest decimal that reads back

A finite binary number stands for an interval of reals: those that round to it. Its ends lie halfway
to the neighbouring numbers and belong to it when the significand is even. Of the decimals in that
interval the shortest is chosen, and of several the one nearest to the number. Everything is exact
arithmetic on naturals.

## Main definitions

* `Decimal.Binary`: a magnitude `m * 2 ^ q`, decoded from the bits
* `Decimal.Digits`: a decimal `value * 10 ^ exponent`
* `Decimal.Binary.readsBack`: whether a decimal lies in the interval
* `Decimal.Binary.shortest`: the decimal that is chosen
-/

namespace SchemaTypes

namespace Decimal

/-- A magnitude `m * 2 ^ q`. Just above a power of two the gap below is half the gap above. -/
structure Binary where
  m : Nat
  q : Int
  narrowBelow : Bool

/-- A decimal `value * 10 ^ exponent`. -/
structure Digits where
  value : Nat
  exponent : Int

/-- Which of two equally near decimals is chosen. -/
inductive Tie
  | toEven
  | upward
deriving DecidableEq

/-- The magnitude of a finite number. -/
def Binary64.magnitude (x : Binary64) : Binary :=
  let biased := ((x.bits >>> 52) &&& 0x7FF).toNat
  let fraction := (x.bits &&& 0xFFFFFFFFFFFFF).toNat
  if biased = 0 then ⟨fraction, -1074, false⟩
  else ⟨Nat.pow 2 52 + fraction, (biased : Int) - 1075, fraction = 0 && 1 < biased⟩

/-- Compares `a * 10 ^ i` with `n * 2 ^ j`. -/
def compareScaled (a : Nat) (i : Int) (n : Nat) (j : Int) : Ordering :=
  compare (a * Nat.pow 10 i.toNat * Nat.pow 2 (-j).toNat)
    (n * Nat.pow 2 j.toNat * Nat.pow 10 (-i).toNat)

namespace Binary

/-- Whether the decimal lies in the interval of reals that round to the number. The ends are
written as multiples of a quarter of the last place. -/
def readsBack (x : Binary) (d : Digits) : Bool :=
  let low := if x.narrowBelow then 4 * x.m - 1 else 4 * x.m - 2
  let high := 4 * x.m + 2
  let closed := x.m % 2 = 0
  let atLow := compareScaled d.value d.exponent low (x.q - 2)
  let atHigh := compareScaled d.value d.exponent high (x.q - 2)
  (atLow = .gt || (closed && atLow = .eq)) && (atHigh = .lt || (closed && atHigh = .eq))

/-- The least `k` from `start` on with `m * 2 ^ q < 10 ^ k`, looking at most `fuel` steps ahead. -/
def scaleFrom (x : Binary) : Nat → Int → Int
  | 0, k => k
  | fuel + 1, k =>
    if compareScaled 1 k x.m x.q = .gt then k else scaleFrom x fuel (k + 1)

/-- The exponent of the power of ten just above a positive magnitude. The binary logarithm gives a
lower bound that is at most two steps off, since a digit holds more than three bits. -/
def scale (x : Binary) : Int :=
  let log2 := (x.m.log2 : Int) + x.q
  scaleFrom x 4 ((log2 * 30103).fdiv 100000)

/-- The whole part of the number in units of `10 ^ exponent`. -/
def wholeUnits (x : Binary) (exponent : Int) : Nat :=
  (x.m * Nat.pow 2 x.q.toNat * Nat.pow 10 (-exponent).toNat) /
    (Nat.pow 2 (-x.q).toNat * Nat.pow 10 exponent.toNat)

/-- The decimal nearest to the number among its two neighbours on the grid of `10 ^ exponent`, of
those that read back. -/
def nearestOnGrid (tie : Tie) (x : Binary) (exponent : Int) : Option Digits :=
  let units := x.wholeUnits exponent
  let below : Digits := ⟨units, exponent⟩
  let above : Digits := ⟨units + 1, exponent⟩
  match x.readsBack below, x.readsBack above with
  | true, false => some below
  | false, true => some above
  | false, false => none
  | true, true =>
    -- the midpoint of the two against the number, both doubled
    match compareScaled (2 * units + 1) exponent (2 * x.m) x.q with
    | .gt => some below
    | .lt => some above
    | .eq => some (if tie = .upward ∨ units % 2 = 1 then above else below)

/-- The first grid that has a decimal that reads back, from the coarsest on. -/
def shortestFrom (tie : Tie) (x : Binary) (top : Int) : Nat → Nat → Digits
  | 0, _ => ⟨x.wholeUnits x.q, x.q⟩
  | fuel + 1, places =>
    match x.nearestOnGrid tie (top - places) with
    | some d => d
    | none => shortestFrom tie x top fuel (places + 1)

/-- The shortest decimal that reads back as the positive magnitude. Seventeen digits always do. -/
def shortest (tie : Tie) (x : Binary) : Digits :=
  shortestFrom tie x x.scale 17 1

end Binary

/-- The decimal without zeros at its end. -/
def Digits.strip : Nat → Digits → Digits
  | 0, d => d
  | fuel + 1, d =>
    if d.value % 10 = 0 then strip fuel ⟨d.value / 10, d.exponent + 1⟩ else d

end Decimal

end SchemaTypes
