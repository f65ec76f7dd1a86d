import SchemaTypes.Emission.Context
import SchemaTypes.TypeScript.TypeExpr

/-!
# The type of a property

The type of a property follows the first clause that applies: items under the declared type array,
an enum, properties under the declared type object, a reference, and at last the declared type
itself. An enum has no type expression of its own. It is named after the definition and the
property, and those met on the way, in items and in objects spelled out in place, become
declarations.

## Main definitions

* `Emission.resolve`: the type of a node, and the context with the enums met on the way
-/

namespace SchemaTypes

namespace Emission

open Schema TypeScript

mutual

/-- The type of a node that belongs to a property of the definition `owner`, and the context with
the enums met inside it. If the node itself is an enum it is only named. -/
def resolve (owner : String) (context : Context) (key : String) (node : Node) :
    TypeExpr × Context :=
  match node.type, _h : node.items with
  | .array, some item =>
    let hoisted := if item.isEnum then context.emitEnum (owner ++ key) item else context
    let (element, after) := resolve owner hoisted key item
    (.array element, after)
  | _, _ =>
    if node.isEnum then (.named (owner ++ key), context)
    else
      match node.type, _h : node.properties with
      | .object, some entries =>
        let (members, after) := resolveMembers owner context entries
        (.object members, after)
      | _, _ =>
        match node.referenceName with
        | some name => (.named name, context)
        | none => (.primitive node.type, context)
termination_by sizeOf node
decreasing_by
  · exact Node.sizeOf_lt_of_items _h
  · exact Node.sizeOf_lt_of_properties _h

/-- The members of an object that is spelled out in place. -/
def resolveMembers (owner : String) (context : Context) :
    List (String × Node) → List (String × TypeExpr) × Context
  | [] => ([], context)
  | (property, node) :: rest =>
    let key := normalizeKey property
    let hoisted := if node.isEnum then context.emitEnum (owner ++ key) node else context
    let (type, between) := resolve owner hoisted key node
    let (members, after) := resolveMembers owner between rest
    ((key, type) :: members, after)
termination_by entries => sizeOf entries

end

end Emission

end SchemaTypes
