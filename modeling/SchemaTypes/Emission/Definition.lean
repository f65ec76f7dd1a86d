import SchemaTypes.Emission.Describe
import SchemaTypes.Emission.Resolve

/-!
# The declaration of a definition

An enum definition becomes an enum. Any other becomes a record, which stands before the enums that
its members bring along.

## Main definitions

* `Emission.memberSource`: the properties a record is made of
* `Emission.emitMember`: the member of a record for a property
* `Emission.emitDefinition`: the context with one more definition
-/

namespace SchemaTypes

namespace Emission

open Schema TypeScript

/-- The properties that a definition is made of. A composition is a base and an extension, and only
the extension counts. -/
def properties? (definition : Node) : Option (List (String × Node)) :=
  match definition.kind with
  | .composition parts => parts[1]?.bind Node.properties
  | .openMap entries => some entries
  | .structured entries => some entries
  | _ => none

/-- The properties a record is made of. Without properties of its own, an array definition has one
member for its items. -/
def memberSource (definition : Node) : List (String × Node) :=
  match properties? definition, definition.items with
  | some entries, _ => entries
  | none, some item => [("items", item)]
  | none, none => []

/-- The member for a property, and the context with the enums it brings along. -/
def emitMember (owner : String) (context : Context) (property : String) (node : Node) :
    RecordMember × Context :=
  let key := normalizeKey property
  let (type, after) :=
    if node.isEnum then (owner ++ key, context.emitEnum (owner ++ key) node)
    else
      let (type, after) := resolve owner context key node
      (type.render, after)
  (⟨key, type, some (describe node), node.nullable⟩, after)

/-- The members for properties in order. -/
def emitMembers (owner : String) (context : Context) :
    List (String × Node) → List RecordMember × Context
  | [] => ([], context)
  | (property, node) :: rest =>
    let (member, between) := emitMember owner context property node
    let (members, after) := emitMembers owner between rest
    (member :: members, after)

/-- The context with the declaration of a definition. A record is added without members, so that it
stands before the enums they bring along, and is given them when they are known. -/
def emitDefinition (context : Context) (name : String) (definition : Node) : Context :=
  if definition.isEnum then context.emitEnum name definition
  else
    let (pushed, place) := context.pushRecord ⟨name, some (describe definition), []⟩
    let (members, after) := emitMembers name pushed (memberSource definition)
    after.setMembers place members

end Emission

end SchemaTypes
