/-!
# TOML values

Values carry the bytes they were read from, so that a diagnostic can point at them. A table knows
how it came about, which decides whether it may be extended.

## Main definitions

* `Toml.Span`: a stretch of bytes
* `Toml.Key`: a key and where it stands
* `Toml.Value`: a value
* `Toml.Entry`: a key with the value it has, and where the value stands
-/

namespace SchemaTypes

namespace Toml

/-- The bytes from `start` up to `stop`. -/
structure Span where
  start : Nat
  stop : Nat
deriving DecidableEq

/-- A key and the bytes it was read from. -/
structure Key where
  text : String
  span : Span
deriving DecidableEq

/-- How a table came about. -/
inductive Origin
  /-- by a header of its own -/
  | header
  /-- by the header of a table inside it -/
  | implied
  /-- by a dotted key -/
  | dotted
  /-- in place, as a value -/
  | inline
deriving DecidableEq

/-- A value. -/
inductive Value
  | text (value : String)
  | integer (value : Int)
  /-- a floating point number, by the digits a diagnostic shows -/
  | floating (digits : String)
  | boolean (value : Bool)
  /-- a number that cannot be held, an integer or not. It is at fault only where it is wanted. -/
  | unheld (isInteger : Bool)
  /-- a date, a time or both -/
  | moment
  /-- items in brackets, or the tables of headers in double brackets -/
  | array (ofTables : Bool) (items : List (Span × Value))
  | table (origin : Origin) (entries : List (Key × Span × Value))

/-- A key, the bytes of its value, and the value. -/
abbrev Entry := Key × Span × Value

end Toml

end SchemaTypes
