import SchemaTypes.Schema.Clauses
import SchemaTypes.Schema.Primitive

/-!
# Schema nodes

A schema object can carry clauses that say different things about its shape. A node is tagged with
its first clause in the order `enum`, `allOf`, a property map of `additionalProperties`,
`properties`, `items`, `$ref`. The last three are kept beside the tag when a clause before them
decides it, and can be asked for either way, for those who look at the clauses in another order.

## Main definitions

* `Schema.EnumValue`: a value of an enum
* `Schema.Kind`, `Schema.Shadowed`: the tag of a node, and the clauses that did not decide it
* `Schema.Node`: a node
* `Schema.Node.properties`, `items`, `reference`: the clauses that a tag can shadow
* `Schema.Node.ofClauses`: the node of a schema object
* `Schema.bareName`: the name a reference ends with
-/

namespace SchemaTypes

namespace Schema

open Json

/-- The declared type of a schema object. -/
def Clauses.primitive (clauses : Clauses) : Primitive :=
  match clauses.typeName with
  | some name => .ofName name
  | none => .unknown

/-! ### Values of an enum -/

/-- A value of an enum. -/
inductive EnumValue
  | text (value : String)
  | number (value : Number)
  | boolean (value : Bool)
deriving DecidableEq

namespace EnumValue

/-- The value of an enum that a JSON value is. `null`, lists and objects are none. -/
def ofJson? : Value → Option EnumValue
  | .text value => some (text value)
  | .number value => some (number value)
  | .boolean value => some (boolean value)
  | _ => none

/-- The value as it is displayed: a text without quotes. -/
def display : EnumValue → String
  | text value => value
  | number value => value.render
  | boolean value => booleanText value

end EnumValue

/-! ### Nodes -/

/-- The tag of a node, over nodes of type `α`: its first clause. -/
inductive Kind (α : Type)
  | enumeration (values : List EnumValue)
  | composition (parts : List α)
  | openMap (entries : List (String × α))
  | structured (entries : List (String × α))
  | array (item : α)
  /-- a reference as it is written -/
  | reference (path : String)
  /-- nothing but a declared type -/
  | primitive

/-- The clauses of a node whose tag went to another one. -/
structure Shadowed (α : Type) where
  properties : Option (List (String × α)) := none
  items : Option α := none
  reference : Option String := none

/-- A schema node. -/
structure Node where
  description : Option String
  sample : Option Value
  type : Primitive
  nullable : Bool
  kind : Kind Node
  shadowed : Shadowed Node

/-- What a node looks like: its tag without what the clause says. -/
inductive Shape
  | enumeration
  | composition
  | openMap
  | structured
  | array
  | reference
  | primitive
deriving DecidableEq

/-- What a report calls a shape. -/
def Shape.name : Shape → String
  | enumeration => "enum"
  | composition => "composed"
  | openMap => "open map"
  | structured => "structured"
  | array => "array"
  | reference => "reference"
  | primitive => "primitive"

/-- The last segment of a path. -/
def bareName (path : String) : String :=
  String.ofList (path.toList.reverse.takeWhile (· ≠ '/')).reverse

/-- What a tag looks like. -/
def Kind.shape {α : Type} : Kind α → Shape
  | enumeration _ => .enumeration
  | composition _ => .composition
  | openMap _ => .openMap
  | structured _ => .structured
  | array _ => .array
  | reference _ => .reference
  | primitive => .primitive

namespace Node

/-- A node with nothing but a declared type. -/
def primitive (type : Primitive) : Node where
  description := none
  sample := none
  type := type
  nullable := false
  kind := .primitive
  shadowed := {}

/-- The shape of a node. -/
def shape (node : Node) : Shape :=
  node.kind.shape

/-! ### The clauses of a node -/

/-- The values of the enum a node is. -/
def enumValues? (node : Node) : Option (List EnumValue) :=
  match node.kind with
  | .enumeration values => some values
  | _ => none

/-- Whether a node is an enum. -/
def isEnum (node : Node) : Bool :=
  node.enumValues?.isSome

/-- The parts of the composition a node is. -/
def parts? (node : Node) : Option (List Node) :=
  match node.kind with
  | .composition parts => some parts
  | _ => none

/-- The entries of the open map a node is. -/
def openEntries? (node : Node) : Option (List (String × Node)) :=
  match node.kind with
  | .openMap entries => some entries
  | _ => none

/-- The properties of a node, whether or not they decided the tag. -/
def properties (node : Node) : Option (List (String × Node)) :=
  match node.kind with
  | .structured entries => some entries
  | _ => node.shadowed.properties

/-- The items of a node, whether or not they decided the tag. -/
def items (node : Node) : Option Node :=
  match node.kind with
  | .array item => some item
  | _ => node.shadowed.items

/-- The reference of a node as it is written, whether or not it decided the tag. -/
def reference (node : Node) : Option String :=
  match node.kind with
  | .reference path => some path
  | _ => node.shadowed.reference

/-- The bare name a node refers to. -/
def referenceName (node : Node) : Option String :=
  node.reference.map bareName

/-! What a clause holds is smaller than the node, so a recursion may go through the clauses. -/

theorem sizeOf_lt_of_items {node item : Node} (h : node.items = some item) :
    sizeOf item < sizeOf node := by
  obtain ⟨_, _, _, _, kind, shadowed⟩ := node
  cases shadowed
  cases kind <;> simp_all [items] <;> omega

theorem sizeOf_lt_of_properties {node : Node} {entries : List (String × Node)}
    (h : node.properties = some entries) : sizeOf entries < sizeOf node := by
  obtain ⟨_, _, _, _, kind, shadowed⟩ := node
  cases shadowed
  cases kind <;> simp_all [properties] <;> omega

end Node

/-! ### From schema objects -/

/-- A description, unless it is empty. -/
def nonempty (description : Option String) : Option String :=
  description.filter fun text => text ≠ ""

/-- Tags a node with the first of its clauses. The clause that decides is taken out of those kept
beside the tag. -/
def Kind.choose {α : Type} (values : Option (List EnumValue)) (parts : Option (List α))
    (openEntries : Option (List (String × α))) (kept : Shadowed α) : Kind α × Shadowed α :=
  match values, parts, openEntries with
  | some values, _, _ => (.enumeration values, kept)
  | none, some parts, _ => (.composition parts, kept)
  | none, none, some entries => (.openMap entries, kept)
  | none, none, none =>
    match kept with
    | ⟨some entries, item?, path?⟩ => (.structured entries, ⟨none, item?, path?⟩)
    | ⟨none, some item, path?⟩ => (.array item, ⟨none, none, path?⟩)
    | ⟨none, none, some path⟩ => (.reference path, {})
    | ⟨none, none, none⟩ => (.primitive, {})

namespace Node

mutual

/-- The node of a schema object. -/
def ofClauses : Clauses → Node
  | ⟨description, sample, declaredType, properties, allOf, additional, items, values, reference,
      nullable⟩ =>
    let kept : Shadowed Node :=
      { properties :=
          match properties with
          | some entries => some (ofEntries entries)
          | none => none
        items :=
          match items with
          | some item => some (ofClauses item)
          | none => none
        reference := reference }
    let parts :=
      match allOf with
      | some parts => some (ofParts parts)
      | none => none
    let openEntries :=
      match additional with
      | some .anything => some []
      | some (.entries entries) => some (ofEntries entries)
      | _ => none
    let chosen :=
      Kind.choose (values.map (List.filterMap EnumValue.ofJson?)) parts openEntries kept
    { description := nonempty description
      sample := sample
      type := Clauses.primitive { declaredType := declaredType }
      nullable := nullable.getD false
      kind := chosen.1
      shadowed := chosen.2 }

/-- The nodes of parts. -/
def ofParts : List Clauses → List Node
  | [] => []
  | part :: rest => ofClauses part :: ofParts rest

/-- The nodes of entries. -/
def ofEntries : List (String × Clauses) → List (String × Node)
  | [] => []
  | (key, clauses) :: rest => (key, ofClauses clauses) :: ofEntries rest

end

end Node

end Schema

end SchemaTypes
