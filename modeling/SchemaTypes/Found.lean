import SchemaTypes.Decimal.Format
import SchemaTypes.Text.Shown

/-!
# Values of the wrong kind

When a value is not of the kind that its place wants, a diagnostic names both: what was found, and
what was wanted. A scalar is shown with its value, a sequence or a map by its kind alone.

## Main definitions

* `Found`: what was found
* `Found.describe`: how a diagnostic names it
* `Found.mismatch`: the whole diagnostic
-/

namespace SchemaTypes

/-- What was found in place of a value of another kind. -/
inductive Found
  | null
  | boolean (value : Bool)
  | integer (value : Int)
  | floating (digits : String)
  | text (value : String)
  | sequence
  | map
deriving DecidableEq

namespace Found

/-- How a diagnostic names a truth value. -/
def truth (value : Bool) : String :=
  if value then "true" else "false"

/-- The machine word an integer beyond sixty-four bits needs, which a diagnostic adds to it. -/
def wideWord (n : Int) : String :=
  if -Int.pow 2 63 ≤ n ∧ n < Int.pow 2 64 then ""
  else if -Int.pow 2 127 ≤ n ∧ n < Int.pow 2 127 then " as i128"
  else " as u128"

/-- How a diagnostic names what was found. -/
def describe : Found → String
  | null => "null"
  | boolean value => "boolean `" ++ truth value ++ "`"
  | integer value => "integer `" ++ Decimal.intText value ++ "`" ++ wideWord value
  | floating digits => "floating point `" ++ digits ++ "`"
  | text value => "string " ++ Text.shown value
  | sequence => "sequence"
  | map => "map"

/-- The diagnostic for a value of the wrong kind. -/
def mismatch (found : Found) (wanted : String) : String :=
  "invalid type: " ++ found.describe ++ ", expected " ++ wanted

end Found

end SchemaTypes
