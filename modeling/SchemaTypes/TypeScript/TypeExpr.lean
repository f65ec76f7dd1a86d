import SchemaTypes.TypeScript.Naming

/-!
# Type expressions

A type is a primitive of the schema, the name of a declaration, an array, or an object spelled out
in place.

## Main definitions

* `TypeScript.TypeExpr`: a type expression
* `TypeScript.primitiveName`: the type a primitive is written as
* `TypeScript.TypeExpr.render`: a type expression as it is written
-/

namespace SchemaTypes

namespace TypeScript

open Schema

/-- A type expression. -/
inductive TypeExpr
  | primitive (type : Primitive)
  | named (name : String)
  | array (element : TypeExpr)
  | object (members : List (String × TypeExpr))

/-- The type a primitive is written as. Integers are numbers, and an array without items holds
anything. -/
def primitiveName : Primitive → String
  | .string => "string"
  | .integer => "number"
  | .number => "number"
  | .boolean => "boolean"
  | .object => "object"
  | .array => "Array<any>"
  | .file => "Blob"
  | .unknown => "any"

namespace TypeExpr

mutual

/-- A type expression as it is written. -/
def render : TypeExpr → String
  | primitive type => primitiveName type
  | named name => name
  | array element => "Array<" ++ render element ++ ">"
  | object [] => "\x7b\x7d"
  | object (member :: rest) => "\x7b " ++ renderMembers (member :: rest) ++ " \x7d"

/-- Members with a comma between neighbours. -/
def renderMembers : List (String × TypeExpr) → String
  | [] => ""
  | [(name, type)] => memberName name ++ ": " ++ render type
  | (name, type) :: rest => memberName name ++ ": " ++ render type ++ ", " ++ renderMembers rest

end

end TypeExpr

end TypeScript

end SchemaTypes
