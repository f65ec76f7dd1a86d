/-!
# Declared types

A schema declares one of seven types by name. A missing or unrecognised name is a kind of its own.

## Main definitions

* `Schema.Primitive`: the declared types
* `Schema.Primitive.ofName`, `Schema.Primitive.name`: from a name and back
-/

namespace SchemaTypes

namespace Schema

/-- The declared type of a schema. -/
inductive Primitive
  | string
  | integer
  | number
  | boolean
  | object
  | array
  | file
  /-- missing or unrecognised -/
  | unknown
deriving DecidableEq

namespace Primitive

/-- The recognised types. -/
def recognised : List Primitive :=
  [string, integer, number, boolean, object, array, file]

/-- The name of a type. -/
def name : Primitive → String
  | string => "string"
  | integer => "integer"
  | number => "number"
  | boolean => "boolean"
  | object => "object"
  | array => "array"
  | file => "file"
  | unknown => "unknown"

/-- The type with a name. The name of the unknown type is unrecognised, as any other. -/
def ofName (text : String) : Primitive :=
  (recognised.find? fun p => p.name = text).getD unknown

@[simp] theorem ofName_name (p : Primitive) : ofName p.name = p := by
  cases p <;> decide

end Primitive

end Schema

end SchemaTypes
