import SchemaTypes.Decimal.Format
import SchemaTypes.Text.Literal

/-!
# JSON values

A value keeps the entries of an object in their order and the kind of each number: an integer
exactly, anything else as a binary floating point number.

## Main definitions

* `Json.Number`, `Json.Value`: numbers and values
* `Json.Value.compact`: a value on one line, without blanks
* `Json.Value.pretty`: a value with one part a line, indented by tabs
-/

namespace SchemaTypes

namespace Json

/-- A number: an integer of at most sixty-four bits, or a floating point number. -/
inductive Number
  | integer (value : Int)
  | floating (value : Decimal.Binary64)
deriving DecidableEq

/-- A value. -/
inductive Value
  | null
  | boolean (value : Bool)
  | number (value : Number)
  | text (value : String)
  | array (items : List Value)
  | object (entries : List (String × Value))

/-! ### Writing scalars -/

/-- Floating point numbers are written with the fewest digits that read back, with a point among
them from the fifth place behind it to the sixteenth before it. -/
def floatFormat : Decimal.Format where
  plainFrom := -5
  plainTo := 15
  tie := .toEven

/-- A number as JSON text. -/
def Number.render : Number → String
  | integer value => Decimal.intText value
  | floating value => floatFormat.render value

/-- A truth value as JSON text. -/
def booleanText (value : Bool) : String :=
  if value then "true" else "false"

namespace Value

/-! ### One line -/

mutual

/-- The value on one line, without blanks. -/
def compact : Value → String
  | null => "null"
  | boolean value => booleanText value
  | number value => value.render
  | text value => Text.literal value
  | array items => "[" ++ compactItems items ++ "]"
  | object entries => "\x7b" ++ compactEntries entries ++ "\x7d"

/-- Items with a comma between neighbours. -/
def compactItems : List Value → String
  | [] => ""
  | [item] => item.compact
  | item :: rest => item.compact ++ "," ++ compactItems rest

/-- Entries with a comma between neighbours. -/
def compactEntries : List (String × Value) → String
  | [] => ""
  | [(key, value)] => Text.literal key ++ ":" ++ value.compact
  | (key, value) :: rest =>
    Text.literal key ++ ":" ++ value.compact ++ "," ++ compactEntries rest

end

/-! ### Several lines -/

/-- A line break and the indentation of a level. -/
def breakLine (level : Nat) : String :=
  String.ofList ('\n' :: List.replicate level '\t')

mutual

/-- The value with each part on a line of its own, one tab a level. What is empty stays on its
line. -/
def prettyAt (level : Nat) : Value → String
  | null => "null"
  | boolean value => booleanText value
  | number value => value.render
  | text value => Text.literal value
  | array [] => "[]"
  | array items => "[" ++ prettyItems (level + 1) items ++ breakLine level ++ "]"
  | object [] => "\x7b\x7d"
  | object entries => "\x7b" ++ prettyEntries (level + 1) entries ++ breakLine level ++ "\x7d"

/-- Items, each on its own line at the level. -/
def prettyItems (level : Nat) : List Value → String
  | [] => ""
  | [item] => breakLine level ++ prettyAt level item
  | item :: rest => breakLine level ++ prettyAt level item ++ "," ++ prettyItems level rest

/-- Entries, each on its own line at the level. -/
def prettyEntries (level : Nat) : List (String × Value) → String
  | [] => ""
  | [(key, value)] => breakLine level ++ Text.literal key ++ ": " ++ prettyAt level value
  | (key, value) :: rest =>
    breakLine level ++ Text.literal key ++ ": " ++ prettyAt level value ++ "," ++
      prettyEntries level rest

end

/-- The value with each part on a line of its own. -/
def pretty (value : Value) : String :=
  prettyAt 0 value

end Value

end Json

end SchemaTypes
