/-!
# Ranges of code points

A property of characters beyond ASCII is held as a list of closed ranges of code points, ascending
and apart, taken from version 17 of the Unicode character database. The modules beside this one
each hold the ranges of one property.

## Main definitions

* `Unicode.Range`: a closed range of code points
* `Unicode.covers`: whether one of the ranges holds a character
-/

namespace SchemaTypes

namespace Unicode

/-- A closed range of code points. -/
structure Range where
  first : Nat
  last : Nat

/-- Whether one of the ranges holds the character. -/
def covers (ranges : List Range) (c : Char) : Bool :=
  ranges.any fun r => r.first ≤ c.toNat && c.toNat ≤ r.last

end Unicode

end SchemaTypes
