import SchemaTypes.Found
import SchemaTypes.Text.Position

/-!
# Faults in JSON

A fault has a cause, and in a text also a place: the number of bytes read when it was noticed.

## Main definitions

* `Json.Cause`: what is wrong
* `Json.Cause.message`: its wording
* `Json.Fault`: a cause in a text
* `Json.Fault.message`: its wording with the line and column
-/

namespace SchemaTypes

namespace Json

/-- What a reader was in when the text ended. -/
inductive Unfinished
  | value
  | list
  | object
  | string
deriving DecidableEq

/-- What is wrong with a text or a value. -/
inductive Cause
  /-- the text ends too early -/
  | ended (inside : Unfinished)
  | colonWanted
  | listEndWanted
  | objectEndWanted
  | wordWanted
  | valueWanted
  | badEscape
  | badNumber
  | numberTooLarge
  | controlCharacter
  | keyNotText
  /-- half of a surrogate pair without the other half -/
  | loneSurrogate
  /-- the first half of a surrogate pair is not followed by an escape -/
  | unfinishedPair
  | trailingComma
  | trailingText
  | tooDeep
  | wrongKind (found : Found) (wanted : String)
  | repeatedField (name : String)
  | wrongLength (found : Nat) (wanted : String)
deriving DecidableEq

/-- How an unfinished reader is named. -/
def Unfinished.describe : Unfinished → String
  | value => "a value"
  | list => "a list"
  | object => "an object"
  | string => "a string"

/-- The wording of a cause. -/
def Cause.message : Cause → String
  | ended inside => "EOF while parsing " ++ inside.describe
  | colonWanted => "expected `:`"
  | listEndWanted => "expected `,` or `]`"
  | objectEndWanted => "expected `,` or `\x7d`"
  | wordWanted => "expected ident"
  | valueWanted => "expected value"
  | badEscape => "invalid escape"
  | badNumber => "invalid number"
  | numberTooLarge => "number out of range"
  | controlCharacter => "control character (\\u0000-\\u001F) found while parsing a string"
  | keyNotText => "key must be a string"
  | loneSurrogate => "lone leading surrogate in hex escape"
  | unfinishedPair => "unexpected end of hex escape"
  | trailingComma => "trailing comma"
  | trailingText => "trailing characters"
  | tooDeep => "recursion limit exceeded"
  | wrongKind found wanted => found.mismatch wanted
  | repeatedField name => "duplicate field `" ++ name ++ "`"
  | wrongLength found wanted =>
    "invalid length " ++ Decimal.natText found ++ ", expected " ++ wanted

/-- A cause, noticed when the reader had read so many bytes. -/
structure Fault where
  cause : Cause
  byte : Nat
deriving DecidableEq

/-- The line and column of a fault in its text. -/
def Fault.place (text : List Char) (fault : Fault) : Text.LineColumn :=
  Text.LineColumn.ofByte text fault.byte

/-- The wording of a fault in its text. -/
def Fault.message (text : List Char) (fault : Fault) : String :=
  let place := fault.place text
  fault.cause.message ++ " at line " ++ Decimal.natText place.line ++ " column " ++
    Decimal.natText place.column

end Json

end SchemaTypes
