import SchemaTypes.Code.Buffer
import SchemaTypes.TypeScript.Naming

/-!
# Statements

A statement declares an interface or an enum. Types and literals stand in it as they are written.

## Main definitions

* `TypeScript.Statement`: a statement
* `TypeScript.Statement.fragments`: its code
-/

namespace SchemaTypes

namespace TypeScript

open Code

/-- A field of an interface. -/
structure Field where
  name : String
  type : String
  doc : Option String
  optional : Bool

/-- A member of an enum, with its literal. -/
structure EnumMember where
  name : String
  literal : String

/-- A declaration of an interface or an enum. -/
inductive Statement
  | interface (name : String) (doc : Option String) (fields : List Field)
  | enumeration (name : String) (doc : Option String) (members : List EnumMember)

/-- The comment for a documentation text, if there is one. -/
def docFragments (doc : Option String) : List Fragment :=
  match doc with
  | some text => [.comment text]
  | none => []

/-- The code of a field. -/
def Field.fragments (field : Field) : List Fragment :=
  let mark := if field.optional then "?" else ""
  docFragments field.doc ++ [.line (memberName field.name ++ mark ++ ": " ++ field.type ++ ";")]

/-- The code of a member. -/
def EnumMember.fragment (member : EnumMember) : Fragment :=
  .line (memberName member.name ++ " = " ++ member.literal ++ ",")

/-- The code of a statement with a head and a body. An empty body stays on the line of the head. -/
def bodyFragment (head : String) (body : List Fragment) : Fragment :=
  if body.isEmpty then .line (head ++ " \x7b\x7d") else .block (head ++ " \x7b") body (some "\x7d")

namespace Statement

/-- What stands in front of a statement. -/
def exportMark (exported : Bool) : String :=
  if exported then "export " else ""

/-- The code of a statement. -/
def fragments (exported : Bool) : Statement → List Fragment
  | interface name doc fields =>
    let head := exportMark exported ++ "interface " ++ name
    docFragments doc ++ [bodyFragment head (fields.flatMap Field.fragments)]
  | enumeration name doc members =>
    let head := exportMark exported ++ "enum " ++ name
    docFragments doc ++ [bodyFragment head (members.map EnumMember.fragment)]

/-- The text of a statement that stands alone, in the usual style. -/
def render (exported : Bool) (statement : Statement) : String :=
  ((Buffer.new .standard).applyAll (statement.fragments exported)).text

end Statement

end TypeScript

end SchemaTypes
