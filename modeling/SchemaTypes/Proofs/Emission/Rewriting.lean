import SchemaTypes.Proofs.Emission.Run
import SchemaTypes.Proofs.Schema.Rewriting

/-!
# Runs over rewritten nodes

A type and the names of the enums that a node asks for are settled by the shape of nodes. Rewriting
nodes leaves both alone, provided references keep their names, so a run over rewritten definitions
goes step by step like the run over the definitions themselves. Each declaration of the one run is
one of the other, with a text replaced here and there; and what becomes of the declaration of a
single node decides what becomes of them all.

## Main definitions

* `Emission.Context.relabel`: a context with every declaration replaced
* `Emission.Follows`: a replacement of declarations does what a rewriting does to nodes

## Main results

* `Emission.typeOf_rewrite`, `requestsOf_rewrite`: types stay, and requests are rewritten
* `Emission.emitAll_rewrite`: a run over rewritten definitions
-/

namespace SchemaTypes

namespace Emission

open Schema TypeScript

/-! ### Members -/

theorem properties?_rewrite (change : Rewriting) (definition : Node) :
    properties? (definition.rewrite change) =
      (properties? definition).map (List.map (Node.rewriteEntry change)) := by
  obtain ⟨_, _, _, _, kind, _⟩ := definition
  cases kind with
  | composition parts =>
    rw [Node.rewrite, properties?, properties?, Node.rewriteKind]
    simp only [Node.rewriteParts_eq, List.getElem?_map]
    cases parts[1]? with
    | none => rfl
    | some part => exact Node.properties_rewrite change part
  | openMap entries => exact congrArg some (Node.rewriteEntries_eq change entries)
  | structured entries => exact congrArg some (Node.rewriteEntries_eq change entries)
  | _ => rfl

/-- The properties of a rewritten definition are rewritten. -/
theorem memberSource_rewrite (change : Rewriting) (definition : Node) :
    memberSource (definition.rewrite change) =
      (memberSource definition).map (Node.rewriteEntry change) := by
  rw [memberSource, memberSource, properties?_rewrite, Node.items_rewrite]
  cases properties? definition <;> cases definition.items <;> rfl

/-! ### Types and requests -/

/-- A request with its node rewritten. -/
def Request.rewrite (change : Rewriting) (request : Request) : Request where
  name := request.name
  node := request.node.rewrite change

theorem request_rewrite (change : Rewriting) (name : String) (node : Node) :
    request name (node.rewrite change) = (request name node).map (Request.rewrite change) := by
  rw [request, request, Node.isEnum_rewrite]
  split <;> rfl

section KeepsNames

variable {change : Rewriting} (h : change.KeepsNames)

include h

theorem route_rewrite (node : Node) :
    route (node.rewrite change) = (route node).map (Node.rewrite change) := by
  rw [route, route, Route.map_first, Node.type_rewrite, Node.items_rewrite, Node.isEnum_rewrite,
    Node.properties_rewrite, Node.referenceName_rewrite h]
  rfl

/-- **Types stay.** Rewriting leaves the type of a node alone. -/
theorem typeOf_rewrite (owner key : String) (node : Node) :
    typeOf owner key (node.rewrite change) = typeOf owner key node := by
  induction node using Node.induction_children generalizing key with
  | step node ih =>
    rw [typeOf_eq, typeOf_eq owner key node, route_rewrite h]
    cases hr : route node with
    | items item =>
      have hitem := Node.mem_children_of_items (items_of_route hr)
      exact congrArg TypeExpr.array (ih item hitem key)
    | enumeration => rfl
    | properties entries =>
      simp only [Route.map, List.map_map]
      refine congrArg TypeExpr.object (List.map_congr_left fun entry he => ?_)
      have hchild := Node.mem_children_of_properties (properties_of_route hr) he
      exact congrArg (normalizeKey entry.1, ·) (ih entry.2 hchild (normalizeKey entry.1))
    | reference name => rfl
    | declared type => rfl

/-- **Requests are rewritten.** The names that a node asks for stay, and so does their order. -/
theorem requestsOf_rewrite (owner key : String) (node : Node) :
    requestsOf owner key (node.rewrite change) =
      (requestsOf owner key node).map (Request.rewrite change) := by
  induction node using Node.induction_children generalizing key with
  | step node ih =>
    rw [requestsOf_eq, requestsOf_eq owner key node, route_rewrite h]
    cases hr : route node with
    | items item =>
      have hitem := Node.mem_children_of_items (items_of_route hr)
      simp only [Route.map, List.map_append, request_rewrite, ih item hitem key]
    | enumeration => rfl
    | properties entries =>
      simp only [Route.map, List.flatMap_map, List.map_flatMap]
      refine List.flatMap_congr fun entry he => ?_
      have hchild := Node.mem_children_of_properties (properties_of_route hr) he
      rw [List.map_append, request_rewrite, ih entry.2 hchild]
    | reference name => rfl
    | declared type => rfl

/-- The type of a member stays. -/
theorem memberType_rewrite (owner property : String) (node : Node) :
    memberType owner property (node.rewrite change) = memberType owner property node := by
  rw [memberType, memberType, Node.isEnum_rewrite, typeOf_rewrite h]

/-- The requests of a member are rewritten. -/
theorem memberRequests_rewrite (owner property : String) (node : Node) :
    memberRequests owner property (node.rewrite change) =
      (memberRequests owner property node).map (Request.rewrite change) := by
  rw [memberRequests, memberRequests, Node.isEnum_rewrite]
  split
  · rfl
  · exact requestsOf_rewrite h owner (normalizeKey property) node

theorem asksFor_rewrite (name : String) (definition : Node) :
    asksFor name (definition.rewrite change) =
      (asksFor name definition).map (Request.rewrite change) := by
  rw [asksFor, asksFor, Node.isEnum_rewrite]
  split
  · rfl
  · rw [hoistsOf, hoistsOf, memberSource_rewrite, List.flatMap_map, List.map_flatMap]
    exact List.flatMap_congr fun entry _ => memberRequests_rewrite h name entry.1 entry.2

end KeepsNames

/-! ### Contexts -/

/-- A context with every declaration replaced. -/
def Context.relabel (context : Context) (f : Declaration → Declaration) : Context :=
  { context with declarations := context.declarations.map f }

/-- Replacing the declaration of a node by `f` gives the declaration of the rewritten node. -/
structure Follows (change : Rewriting) (f : Declaration → Declaration) : Prop where
  keepsNames : change.KeepsNames
  record : ∀ name definition, f (.record (recordOf name definition)) =
    .record (recordOf name (definition.rewrite change))
  enumeration : ∀ name node, f (.enumeration (Context.enumOf name node)) =
    .enumeration (Context.enumOf name (node.rewrite change))

namespace Follows

variable {change : Rewriting} {f : Declaration → Declaration} (h : Follows change f)

include h

theorem emitEnum (context : Context) (name : String) (node : Node) :
    (context.relabel f).emitEnum name (node.rewrite change) =
      (context.emitEnum name node).relabel f := by
  have hnames : (context.relabel f).enumNames = context.enumNames := rfl
  by_cases hname : name ∈ context.enumNames
  · rw [Context.emitEnum_of_mem hname, Context.emitEnum_of_mem (hnames ▸ hname)]
  · rw [Context.emitEnum_of_notMem hname, Context.emitEnum_of_notMem (hnames ▸ hname)]
    simp [Context.relabel, h.enumeration]

theorem emitEach (context : Context) (requests : List Request) :
    (context.relabel f).emitEach (requests.map (Request.rewrite change)) =
      (context.emitEach requests).relabel f := by
  induction requests generalizing context with
  | nil => rfl
  | cons first rest ih =>
    rw [List.map_cons, Context.emitEach_cons, Context.emitEach_cons, ← ih, ← h.emitEnum]
    rfl

/-- The step: a rewritten definition goes into the replaced context as the definition goes into the
context. -/
theorem emitDefinition (context : Context) (name : String) (definition : Node) :
    emitDefinition (context.relabel f) name (definition.rewrite change) =
      (emitDefinition context name definition).relabel f := by
  rw [emitDefinition_eq, emitDefinition_eq, asksFor_rewrite h.keepsNames, ← h.emitEach]
  congr 1
  rw [record?, record?, Node.isEnum_rewrite]
  cases definition.isEnum with
  | true => simp [Context.relabel]
  | false => simp [Context.relabel, h.record]

theorem emitMore (context : Context) (definitions : List (String × Node)) :
    (context.relabel f).emitMore (definitions.map (Node.rewriteEntry change)) =
      (context.emitMore definitions).relabel f := by
  induction definitions generalizing context with
  | nil => rfl
  | cons definition rest ih =>
    rw [List.map_cons, Context.emitMore_cons, Context.emitMore_cons, ← ih, ← h.emitDefinition]
    rfl

end Follows

/-- **A run over rewritten definitions** leaves the declarations of the run over the definitions
themselves, with each of them replaced. -/
theorem emitAll_rewrite {change : Rewriting} {f : Declaration → Declaration}
    (h : Follows change f) (definitions : List (String × Node)) :
    emitAll (definitions.map (Node.rewriteEntry change)) = (emitAll definitions).relabel f :=
  h.emitMore .empty definitions

end Emission

end SchemaTypes
