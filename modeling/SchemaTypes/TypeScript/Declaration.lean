import SchemaTypes.TypeScript.Statement

/-!
# Declarations

What a run produces: enums with the values of a schema, and records with the types of their members
as they are written.

## Main definitions

* `TypeScript.EnumDeclaration`, `TypeScript.RecordDeclaration`, `TypeScript.Declaration`
* `TypeScript.Declaration.statement`: the statement a declaration is written as
-/

namespace SchemaTypes

namespace TypeScript

open Schema

/-- A member of an enum, with its value. -/
structure EnumCase where
  name : String
  value : EnumValue
deriving DecidableEq

/-- An enum. -/
structure EnumDeclaration where
  name : String
  doc : Option String
  members : List EnumCase
deriving DecidableEq

/-- A member of a record. Its type stands as it is written. -/
structure RecordMember where
  name : String
  type : String
  doc : Option String
  optional : Bool
deriving DecidableEq

/-- A record. -/
structure RecordDeclaration where
  name : String
  doc : Option String
  members : List RecordMember
deriving DecidableEq

/-- The member of a record with a name. -/
def RecordDeclaration.member? (record : RecordDeclaration) (name : String) : Option RecordMember :=
  record.members.find? fun member => member.name = name

/-- A declaration. -/
inductive Declaration
  | enumeration (declaration : EnumDeclaration)
  | record (declaration : RecordDeclaration)
deriving DecidableEq

/-- The literal of a value. An enum holds texts and numbers only, so a truth value becomes a
text. -/
def literalOf : EnumValue → String
  | .text value => Text.literal value
  | .number value => value.render
  | .boolean value => Text.literal (Json.booleanText value)

namespace Declaration

/-- The name of a declaration. -/
def name : Declaration → String
  | enumeration declaration => declaration.name
  | record declaration => declaration.name

/-- The documentation of a declaration. -/
def doc : Declaration → Option String
  | enumeration declaration => declaration.doc
  | record declaration => declaration.doc

/-- The enum a declaration is. -/
def enum? : Declaration → Option EnumDeclaration
  | enumeration declaration => some declaration
  | record _ => none

/-- The record a declaration is. -/
def record? : Declaration → Option RecordDeclaration
  | record declaration => some declaration
  | enumeration _ => none

/-- The statement a declaration is written as. -/
def statement : Declaration → Statement
  | enumeration declaration =>
    .enumeration declaration.name declaration.doc
      (declaration.members.map fun member => ⟨member.name, literalOf member.value⟩)
  | record declaration =>
    .interface declaration.name declaration.doc
      (declaration.members.map fun m => ⟨m.name, m.type, m.doc, m.optional⟩)

end Declaration

end TypeScript

end SchemaTypes
