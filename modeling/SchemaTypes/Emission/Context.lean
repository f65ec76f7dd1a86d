import SchemaTypes.TypeScript.SourceFile

/-!
# The context of a run

A run collects declarations in order. The names of enums are unique: the first enum of a name is
kept and later ones are dropped. A record may share its name with an enum.

## Main definitions

* `Emission.Context`: the declarations so far and the names of enums
* `Emission.Context.emitEnum`: adds the enum of a node, unless its name is taken
* `Emission.Context.pushRecord`, `setMembers`: adds a record whose members follow later
-/

namespace SchemaTypes

namespace Emission

open Schema TypeScript

/-- The declarations of a run so far, and the names its enums have taken. -/
structure Context where
  enumNames : List String
  declarations : List Declaration
deriving DecidableEq

namespace Context

/-- No declarations. -/
def empty : Context where
  enumNames := []
  declarations := []

/-! ### Looking up -/

/-- Whether an enum has taken a name. -/
def hasEnum (context : Context) (name : String) : Bool :=
  context.enumNames.contains name

/-- The first declaration with a name. -/
def find? (context : Context) (name : String) : Option Declaration :=
  context.declarations.find? fun d => d.name = name

/-- The enum with a name. -/
def findEnum? (context : Context) (name : String) : Option EnumDeclaration :=
  (context.declarations.filterMap Declaration.enum?).find? fun d => d.name = name

/-- The first record with a name. -/
def findRecord? (context : Context) (name : String) : Option RecordDeclaration :=
  (context.declarations.filterMap Declaration.record?).find? fun d => d.name = name

/-- The number of declarations. -/
def size (context : Context) : Nat :=
  context.declarations.length

/-- The number of enums. -/
def enumCount (context : Context) : Nat :=
  context.enumNames.length

/-- The number of records: the declarations that are no enums. -/
def recordCount (context : Context) : Nat :=
  context.size - context.enumCount

/-- The declarations as a source file. -/
def render (context : Context) (options : RenderOptions) : String :=
  renderDeclarations options context.declarations

/-! ### Adding -/

/-- The enum of a node under a name. A node without enum values gives an empty enum. -/
def enumOf (name : String) (node : Node) : EnumDeclaration where
  name := name
  doc := node.description
  members := (node.enumValues?.getD []).map fun value => ⟨enumMemberName value, value⟩

/-- Adds the enum of a node under a name, unless another enum has taken the name. -/
def emitEnum (context : Context) (name : String) (node : Node) : Context :=
  if context.hasEnum name then context
  else
    { enumNames := context.enumNames ++ [name]
      declarations := context.declarations ++ [.enumeration (enumOf name node)] }

/-- Adds a record, and tells its place among the declarations. -/
def pushRecord (context : Context) (record : RecordDeclaration) : Context × Nat :=
  ({ context with declarations := context.declarations ++ [.record record] },
    context.declarations.length)

/-- Gives the record at a place its members. -/
def setMembers (context : Context) (place : Nat) (members : List RecordMember) : Context :=
  match context.declarations[place]? with
  | some (.record record) =>
    { context with
      declarations := context.declarations.set place (.record { record with members := members }) }
  | _ => context

end Context

end Emission

end SchemaTypes
