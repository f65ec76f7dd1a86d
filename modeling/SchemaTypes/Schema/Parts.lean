import SchemaTypes.Json.Record
import SchemaTypes.Schema.Forms

/-!
# Schema objects in a text

A node of the tree of a text is a source of clauses, as a JSON value is. It is read in place: its
faults carry the byte where they were noticed, and what no clause wants is only checked.

## Main definitions

* `Schema.Part`: a node with the outcomes of reading it in every form
* `Schema.Part.ofTree`: every node as a part
* `Schema.Clauses.ofTree`: the schema object of a node
-/

namespace SchemaTypes

namespace Schema

open Json

/-- A node of the tree of a text, with the outcomes of reading it in every form. -/
structure Part where
  tree : Tree
  forms : Forms Fault

/-- A schema object as a record. -/
def schemaRecord : Record Clause Clauses Part where
  wanted := schemaWanted
  lengthWanted := schemaLengthWanted
  fields := Clause.all
  ofKey? := Clause.ofKey?
  key := Clause.key
  tree := Part.tree
  empty := .empty
  fill clauses clause part := clauses.fill clause part.forms

namespace Part

/-- The schemas of items in order, behind which the list has to end. -/
def schemas (ending : ListEnd) (items : List Part) : Except Fault (List Clauses) := do
  let read ← items.mapM fun item => item.forms.schema
  ending.read
  .ok read

/-- The keyed schemas of entries in order, behind which the object has to end. -/
def schemaMap (ending : ObjectEnd) (entries : List (Key × Part)) :
    Except Fault (List (String × Clauses)) := do
  let read ← entries.mapM fun entry => do
    let name ← entry.1.reading
    let schema ← entry.2.forms.schema
    .ok (name, schema)
  ending.read entries.isEmpty
  .ok (Entries.collect read)

/-- A node as a part that only the form of any value accepts. -/
def scalar (room : Nat) (tree : Tree) : Part where
  tree := tree
  forms :=
    { isNull := tree.isNull
      value := tree.value room
      text := .error (tree.refuse textWanted)
      truth := .error (tree.refuse truthWanted)
      values := .error (tree.refuse listWanted)
      additional := (tree.value room).map Additional.ofValue
      schema := .error (tree.refuse schemaWanted)
      schemas := .error (tree.refuse listWanted)
      schemaMap := .error (tree.refuse mapWanted) }

/-- The part with some of its forms replaced. -/
def withForms (part : Part) (change : Forms Fault → Forms Fault) : Part :=
  { part with forms := change part.forms }

mutual

/-- A node as a part, where `room` more levels may be entered. -/
def ofTree (room : Nat) : Tree → Part
  | .absent next => scalar room (.absent next)
  | .plain reading checking start stop =>
    let node := Tree.plain reading checking start stop
    (scalar room node).withForms fun forms =>
      { forms with
        truth := match reading with
          | .ok (.boolean value) => .ok value
          | _ => .error (node.refuse truthWanted) }
  | .text reading checking start stop =>
    (scalar room (.text reading checking start stop)).withForms fun forms =>
      { forms with text := reading }
  | .list start items ending =>
    let parts := ofItems (room - 1) items
    (scalar room (.list start items ending)).withForms fun forms =>
      { forms with
        values := inside room start do
          let read ← Tree.values (room - 1) items
          ending.read
          .ok read
        schema := inside room start (schemaRecord.readList ending parts)
        schemas := inside room start (schemas ending parts) }
  | .object start entries ending =>
    let parts := ofEntries (room - 1) entries
    (scalar room (.object start entries ending)).withForms fun forms =>
      { forms with
        schema := inside room start (schemaRecord.readObject ending parts)
        schemaMap := inside room start (schemaMap ending parts) }

/-- Items as parts. -/
def ofItems (room : Nat) : List Tree → List Part
  | [] => []
  | item :: rest => ofTree room item :: ofItems room rest

/-- Entries as keyed parts. -/
def ofEntries (room : Nat) : List (Key × Tree) → List (Key × Part)
  | [] => []
  | (key, tree) :: rest => (key, ofTree room tree) :: ofEntries room rest

end

end Part

/-- The schema object of a node. -/
def Clauses.ofTree (room : Nat) (tree : Tree) : Except Fault Clauses :=
  (Part.ofTree room tree).forms.schema

/-! ### Documents -/

/-- The fields of the components of a document. -/
inductive ComponentField
  | schemas
deriving DecidableEq

/-- The fields of a document that hold definitions. -/
inductive DocumentField
  | definitions
  | components
deriving DecidableEq

/-- Keyed schema objects. -/
abbrev ClauseMap := List (String × Clauses)

/-- What the two places of a document say that can hold definitions. -/
structure DefinitionSources where
  definitions : Option ClauseMap := none
  components : Option (Option ClauseMap) := none

/-- The definitions of a document. Those at the top come before those among the components. -/
def DefinitionSources.chosen (sources : DefinitionSources) : Option ClauseMap :=
  sources.definitions.or (sources.components.bind id)

/-- The components of a document as a record. -/
def componentRecord : Record ComponentField (Option ClauseMap) Part where
  wanted := "struct RawComponents"
  lengthWanted := "struct RawComponents with 1 element"
  fields := [.schemas]
  ofKey? key := if key = "schemas" then some .schemas else none
  key _ := "schemas"
  tree := Part.tree
  empty := none
  fill _ _ part := part.forms.optional part.forms.schemaMap

/-- A record with parts, where `room` more levels may be entered. -/
def readRecord {φ σ : Type} [DecidableEq φ] (record : Record φ σ Part) (room : Nat) :
    Tree → Except Fault σ
  | .list start items ending =>
    inside room start (record.readList ending (Part.ofItems (room - 1) items))
  | .object start entries ending =>
    inside room start (record.readObject ending (Part.ofEntries (room - 1) entries))
  | tree => .error (tree.refuse record.wanted)

/-- A document as a record, whose parts lie one level below the top. -/
def documentRecord : Record DocumentField DefinitionSources Part where
  wanted := "struct RawDocument"
  lengthWanted := "struct RawDocument with 2 elements"
  fields := [.definitions, .components]
  ofKey? key :=
    if key = "definitions" then some .definitions
    else if key = "components" then some .components
    else none
  key
    | .definitions => "definitions"
    | .components => "components"
  tree := Part.tree
  empty := {}
  fill sources field part :=
    match field with
    | .definitions =>
      (part.forms.optional part.forms.schemaMap).map fun x => { sources with definitions := x }
    | .components =>
      (part.forms.optional (readRecord componentRecord (maxDepth - 1) part.tree)).map fun x =>
        { sources with components := x }

/-- What a text says in the places that can hold definitions. -/
def DefinitionSources.ofText (text : List Char) : Except Fault DefinitionSources :=
  let document := TextTree.ofText text
  document.close (readRecord documentRecord maxDepth document.root)

end Schema

end SchemaTypes
