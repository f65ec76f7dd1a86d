import SchemaTypes.Schema.Node
import SchemaTypes.Text.Literal
import SchemaTypes.Unicode.Alphabetic
import SchemaTypes.Unicode.Numeric

/-!
# Names

The key of a property becomes a member name: dots and hyphens turn into underscores. A name that is
an identifier is written as it is, any other as a string literal.

## Main definitions

* `TypeScript.normalizeKey`: a property key as a member name
* `TypeScript.enumMemberName`: the member name of an enum value
* `TypeScript.isIdentifier`: whether a name can stand without quotes
* `TypeScript.memberName`: a member name as it is written
-/

namespace SchemaTypes

namespace TypeScript

/-- A character of a property key in a member name. -/
def normalizeChar (c : Char) : Char :=
  if c = '.' ∨ c = '-' then '_' else c

/-- A property key as a member name. -/
def normalizeKey (key : String) : String :=
  String.ofList (key.toList.map normalizeChar)

/-- Whether a text starts with a digit `0` to `9`. -/
def startsWithDigit (text : List Char) : Bool :=
  text.head?.any Char.isDigit

/-- The member name of an enum value: its display, behind an underscore if that is empty or starts
with a digit. -/
def enumMemberName (value : Schema.EnumValue) : String :=
  let name := value.display
  if name = "" ∨ startsWithDigit name.toList then "_" ++ name else name

/-- Whether a character can start an identifier. -/
def isIdentifierStart (c : Char) : Bool :=
  c = '_' || c = '$' || Unicode.isAlphabetic c

/-- Whether a character can stand inside an identifier. -/
def isIdentifierPart (c : Char) : Bool :=
  isIdentifierStart c || Unicode.isNumeric c

/-- Whether characters form an identifier. -/
def isIdentifierText : List Char → Bool
  | [] => false
  | c :: rest => isIdentifierStart c && rest.all isIdentifierPart

/-- Whether a name can stand without quotes. -/
def isIdentifier (name : String) : Bool :=
  isIdentifierText name.toList

/-- A member name as it is written. -/
def memberName (name : String) : String :=
  if isIdentifier name then name else Text.literal name

end TypeScript

end SchemaTypes
