import SchemaTypes.Json.Value

/-!
# The clauses of a schema object

A schema object can carry any combination of ten clauses. They are held as they are written, before
anything is made of their combination. A clause that is missing and one that is `null` are the same.

## Main definitions

* `Schema.Clause`: the names of the clauses, in the order of the list form
* `Schema.Additional`: what `additionalProperties` says
* `Schema.Clauses`: a schema object
* `Schema.Clauses.typeName`: the declared type name
-/

namespace SchemaTypes

namespace Schema

/-! ### Names -/

/-- The clauses of a schema object. -/
inductive Clause
  | description
  | sample
  | declaredType
  | properties
  | allOf
  | additionalProperties
  | items
  | values
  | reference
  | nullable
deriving DecidableEq

namespace Clause

/-- The clauses in the order of the list form. -/
def all : List Clause :=
  [description, sample, declaredType, properties, allOf, additionalProperties, items, values,
    reference, nullable]

/-- The key of a clause. -/
def key : Clause → String
  | description => "description"
  | sample => "example"
  | declaredType => "type"
  | properties => "properties"
  | allOf => "allOf"
  | additionalProperties => "additionalProperties"
  | items => "items"
  | values => "enum"
  | reference => "$ref"
  | nullable => "x-nullable"

/-- The clause with a key. The nullable clause has a second spelling. -/
def ofKey? (text : String) : Option Clause :=
  if text = "x_nullable" then some nullable else all.find? fun c => c.key = text

end Clause

/-! ### The object -/

/-- What `additionalProperties` says, with schemas of type `α`. -/
inductive Additional (α : Type)
  /-- `true`: any property is allowed -/
  | anything
  /-- a map of properties: the entries that are schema objects -/
  | entries (entries : List (String × α))
  /-- `false`, or something that says nothing about properties -/
  | uninterpreted

/-- A schema object as it is written. -/
structure Clauses where
  description : Option String := none
  sample : Option Json.Value := none
  declaredType : Option Json.Value := none
  properties : Option (List (String × Clauses)) := none
  allOf : Option (List Clauses) := none
  additional : Option (Additional Clauses) := none
  items : Option Clauses := none
  values : Option (List Json.Value) := none
  reference : Option String := none
  nullable : Option Bool := none

namespace Clauses

/-- A schema object without clauses. -/
def empty : Clauses := {}

/-- The text of a value, if it is one. -/
def textOf? : Json.Value → Option String
  | .text text => some text
  | _ => none

/-- The declared type name. Of a list of names the first other than `null` counts. -/
def typeName (clauses : Clauses) : Option String :=
  match clauses.declaredType with
  | some (.text name) => some name
  | some (.array names) => (names.filterMap textOf?).find? fun name => name ≠ "null"
  | _ => none

end Clauses

end Schema

end SchemaTypes
