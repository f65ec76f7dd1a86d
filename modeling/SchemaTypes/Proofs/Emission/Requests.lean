import SchemaTypes.Emission.Definition
import SchemaTypes.Proofs.Schema.Children

/-!
# Types and requests of a node

Resolving a node does two things at once: it computes a type, and it adds enums to the context. Here
they are told apart. The type of a node is a function of the node alone, and so is the list of the
enums that it asks for; the context only decides which of the requests are met.

## Main definitions

* `Emission.Route`, `Emission.Route.first`: the clause that a type follows
* `Emission.Route.map`: a route over other nodes
* `Emission.route`: the clause that the type of a node follows
* `Emission.typeOf`: the type of a node
* `Emission.Request`, `Emission.requestsOf`: an enum that is asked for, and those a node asks for
* `Emission.onward`: the nodes that resolving a node goes on with
* `Emission.Context.emitEach`: a context after some requests

## Main results

* `Emission.requestsOf_induction`: induction down to the node that an enum is asked for
* `Emission.resolve_eq`: resolving a node gives its type and meets its requests
-/

namespace SchemaTypes

namespace Emission

open Schema TypeScript

/-! ### The clause a type follows -/

/-- The clause that a type follows, over nodes of type `α`. -/
inductive Route (α : Type)
  | items (item : α)
  | enumeration
  | properties (entries : List (String × α))
  | reference (name : String)
  | declared (type : Primitive)

namespace Route

variable {α : Type} {type : Primitive} {items : Option α} {isEnum : Bool}
  {properties : Option (List (String × α))} {reference : Option String}

/-- The first of some clauses in the order of types. -/
def first (type : Primitive) (items : Option α) (isEnum : Bool)
    (properties : Option (List (String × α))) (reference : Option String) : Route α :=
  match type, items with
  | .array, some item => .items item
  | _, _ =>
    if isEnum then .enumeration
    else
      match type, properties with
      | .object, some entries => .properties entries
      | _, _ =>
        match reference with
        | some name => .reference name
        | none => .declared type

theorem items_of_first {item : α}
    (h : first type items isEnum properties reference = .items item) : items = some item := by
  rw [first.eq_def] at h
  repeat' split at h
  all_goals cases h
  rfl

theorem properties_of_first {entries : List (String × α)}
    (h : first type items isEnum properties reference = .properties entries) :
    properties = some entries := by
  rw [first.eq_def] at h
  repeat' split at h
  all_goals cases h
  rfl

theorem isEnum_of_first (h : first type items isEnum properties reference = .enumeration) :
    isEnum = true := by
  rw [first.eq_def] at h
  repeat' split at h
  all_goals cases h
  assumption

theorem reference_of_first {name : String}
    (h : first type items isEnum properties reference = .reference name) :
    reference = some name := by
  rw [first.eq_def] at h
  repeat' split at h
  all_goals cases h
  rfl

/-- A route with its nodes replaced. -/
def map {β : Type} (f : α → β) : Route α → Route β
  | .items item => .items (f item)
  | .enumeration => .enumeration
  | .properties entries => .properties (entries.map fun entry => (entry.1, f entry.2))
  | .reference name => .reference name
  | .declared type => .declared type

/-- The first clause is found before or after its nodes are replaced. -/
theorem map_first {β : Type} (f : α → β) (type : Primitive) (items : Option α) (isEnum : Bool)
    (properties : Option (List (String × α))) (reference : Option String) :
    (first type items isEnum properties reference).map f =
      first type (items.map f) isEnum
        (properties.map (List.map fun entry => (entry.1, f entry.2))) reference := by
  cases type <;> cases items <;> cases isEnum <;> cases properties <;> cases reference <;> rfl

end Route

/-- The first clause of a node in the order of types. -/
def route (node : Node) : Route Node :=
  .first node.type node.items node.isEnum node.properties node.referenceName

theorem items_of_route {node item : Node} (h : route node = .items item) :
    node.items = some item :=
  Route.items_of_first h

theorem properties_of_route {node : Node} {entries : List (String × Node)}
    (h : route node = .properties entries) : node.properties = some entries :=
  Route.properties_of_first h

theorem isEnum_of_route {node : Node} (h : route node = .enumeration) : node.isEnum = true :=
  Route.isEnum_of_first h

theorem referenceName_of_route {node : Node} {name : String} (h : route node = .reference name) :
    node.referenceName = some name :=
  Route.reference_of_first h

/-- Resolving a node follows its route. -/
theorem resolve_of_route (owner : String) (context : Context) (key : String) (node : Node) :
    resolve owner context key node =
      match route node with
      | .items item =>
        let hoisted := if item.isEnum then context.emitEnum (owner ++ key) item else context
        let (element, after) := resolve owner hoisted key item
        (.array element, after)
      | .enumeration => (.named (owner ++ key), context)
      | .properties entries =>
        let (members, after) := resolveMembers owner context entries
        (.object members, after)
      | .reference name => (.named name, context)
      | .declared type => (.primitive type, context) := by
  rw [resolve, route, Route.first.eq_def]
  repeat' split
  all_goals simp_all

/-! ### The type of a node -/

/-- The type of a node that belongs to a property of the definition `owner`. -/
def typeOf (owner key : String) (node : Node) : TypeExpr :=
  match _h : route node with
  | .items item => .array (typeOf owner key item)
  | .enumeration => .named (owner ++ key)
  | .properties entries =>
    .object (entries.attach.map fun ⟨entry, _⟩ =>
      (normalizeKey entry.1, typeOf owner (normalizeKey entry.1) entry.2))
  | .reference name => .named name
  | .declared type => .primitive type
termination_by sizeOf node
decreasing_by
  · exact Node.sizeOf_lt_of_items (items_of_route _h)
  · exact Nat.lt_trans (Node.sizeOf_lt_of_mem_entries ‹_›)
      (Node.sizeOf_lt_of_properties (properties_of_route _h))

theorem typeOf_eq (owner key : String) (node : Node) :
    typeOf owner key node =
      match route node with
      | .items item => .array (typeOf owner key item)
      | .enumeration => .named (owner ++ key)
      | .properties entries =>
        .object (entries.map fun entry =>
          (normalizeKey entry.1, typeOf owner (normalizeKey entry.1) entry.2))
      | .reference name => .named name
      | .declared type => .primitive type := by
  rw [typeOf]
  split
  case h_3 entries hr => rw [hr, List.map_subtype fun _ _ => rfl, List.unattach_attach]
  all_goals simp_all

/-! ### The enums a node asks for -/

/-- An enum that is asked for: the enum of a node under a name. -/
structure Request where
  name : String
  node : Node

/-- The request for a node under a name. Only an enum makes one. -/
def request (name : String) (node : Node) : List Request :=
  if node.isEnum then [⟨name, node⟩] else []

/-- The enums that a node asks for, in the order in which they are met: an array asks for its items
before what they contain, and an object for its members one after another. -/
def requestsOf (owner key : String) (node : Node) : List Request :=
  match _h : route node with
  | .items item => request (owner ++ key) item ++ requestsOf owner key item
  | .properties entries =>
    entries.attach.flatMap fun ⟨entry, _⟩ =>
      request (owner ++ normalizeKey entry.1) entry.2 ++
        requestsOf owner (normalizeKey entry.1) entry.2
  | _ => []
termination_by sizeOf node
decreasing_by
  · exact Node.sizeOf_lt_of_items (items_of_route _h)
  · exact Nat.lt_trans (Node.sizeOf_lt_of_mem_entries ‹_›)
      (Node.sizeOf_lt_of_properties (properties_of_route _h))

theorem requestsOf_eq (owner key : String) (node : Node) :
    requestsOf owner key node =
      match route node with
      | .items item => request (owner ++ key) item ++ requestsOf owner key item
      | .properties entries =>
        entries.flatMap fun entry =>
          request (owner ++ normalizeKey entry.1) entry.2 ++
            requestsOf owner (normalizeKey entry.1) entry.2
      | _ => [] := by
  rw [requestsOf]
  split
  case h_2 entries hr =>
    rw [hr, List.flatMap_subtype fun _ _ => rfl, List.unattach_attach]
    rfl
  all_goals simp_all

theorem mem_request {name : String} {node : Node} {asked : Request} :
    asked ∈ request name node ↔ node.isEnum = true ∧ asked = ⟨name, node⟩ := by
  rw [request]
  split <;> simp_all

/-! ### Where resolving goes on -/

/-- The nodes that resolving a node goes on with, each under its key: the items of an array under
the key of the array, the members of an object under their own. -/
def onward (key : String) (node : Node) : List (String × Node) :=
  match route node with
  | .items item => [(key, item)]
  | .properties entries => entries.map fun entry => (normalizeKey entry.1, entry.2)
  | _ => []

theorem mem_children_of_mem_onward {key : String} {node : Node} {part : String × Node}
    (h : part ∈ onward key node) : part.2 ∈ node.children := by
  rw [onward] at h
  split at h
  · next item hr =>
    obtain rfl := List.mem_singleton.mp h
    exact Node.mem_children_of_items (items_of_route hr)
  · next entries hr =>
    obtain ⟨entry, hentry, rfl⟩ := List.mem_map.mp h
    have hchild := Node.mem_children_of_properties (properties_of_route hr) hentry
    exact hchild
  · cases h

/-- A node asks for the enums among the nodes that resolving goes on with, and for what these ask
for. -/
theorem mem_requestsOf {owner key : String} {node : Node} {asked : Request} :
    asked ∈ requestsOf owner key node ↔
      ∃ part ∈ onward key node,
        (part.2.isEnum = true ∧ asked = ⟨owner ++ part.1, part.2⟩) ∨
          asked ∈ requestsOf owner part.1 part.2 := by
  have honward : requestsOf owner key node =
      (onward key node).flatMap fun part =>
        request (owner ++ part.1) part.2 ++ requestsOf owner part.1 part.2 := by
    rw [requestsOf_eq, onward]
    cases route node with
    | items item => rw [List.flatMap_singleton]
    | properties entries => rw [List.flatMap_map]
    | _ => rfl
  simp only [honward, List.mem_flatMap, List.mem_append, mem_request]

/-- What holds of a node as soon as one of the nodes that resolving goes on with is the enum that is
asked for, or has the property itself, holds of every node that asks for the enum. -/
theorem requestsOf_induction {owner : String} {asked : Request} {motive : String → Node → Prop}
    (here : ∀ key node part, part ∈ onward key node → part.2.isEnum = true →
      asked = ⟨owner ++ part.1, part.2⟩ → motive key node)
    (below : ∀ key node part, part ∈ onward key node → motive part.1 part.2 → motive key node)
    {key : String} {node : Node} (h : asked ∈ requestsOf owner key node) : motive key node := by
  induction node using Node.induction_children generalizing key with
  | step node ih =>
    obtain ⟨part, hpart, ⟨henum, hasked⟩ | hasked⟩ := mem_requestsOf.mp h
    · exact here key node part hpart henum hasked
    · exact below key node part hpart (ih part.2 (mem_children_of_mem_onward hpart) hasked)

/-! ### Meeting requests -/

namespace Context

/-- The context after some requests, one after another. -/
def emitEach (context : Context) (requests : List Request) : Context :=
  requests.foldl (fun context request => context.emitEnum request.name request.node) context

@[simp] theorem emitEach_nil (context : Context) : context.emitEach [] = context := rfl

@[simp] theorem emitEach_cons (context : Context) (first : Request) (rest : List Request) :
    context.emitEach (first :: rest) =
      (context.emitEnum first.name first.node).emitEach rest := rfl

@[simp] theorem emitEach_append (context : Context) (xs ys : List Request) :
    context.emitEach (xs ++ ys) = (context.emitEach xs).emitEach ys :=
  List.foldl_append

/-- Only an enum is hoisted. -/
theorem emitEach_request (context : Context) (name : String) (node : Node) :
    context.emitEach (request name node) =
      if node.isEnum then context.emitEnum name node else context := by
  rw [request]
  split <;> rfl

end Context

/-! ### Resolving -/

/-- Resolving the members of an object, given what resolving each of their nodes does. -/
private theorem resolveMembers_eq_of (owner : String) {entries : List (String × Node)}
    (h : ∀ entry ∈ entries, ∀ context key, resolve owner context key entry.2 =
      (typeOf owner key entry.2, context.emitEach (requestsOf owner key entry.2)))
    (context : Context) :
    resolveMembers owner context entries =
      (entries.map fun entry =>
          (normalizeKey entry.1, typeOf owner (normalizeKey entry.1) entry.2),
        context.emitEach (entries.flatMap fun entry =>
          request (owner ++ normalizeKey entry.1) entry.2 ++
            requestsOf owner (normalizeKey entry.1) entry.2)) := by
  induction entries generalizing context with
  | nil => simp [resolveMembers]
  | cons entry rest ih =>
    obtain ⟨property, node⟩ := entry
    have hnode := h (property, node) List.mem_cons_self
    have hrest := ih fun e he => h e (List.mem_cons_of_mem _ he)
    simp only [resolveMembers, hnode, hrest, List.map_cons, List.flatMap_cons,
      Context.emitEach_append, Context.emitEach_request]

/-- **Resolving a node gives its type and meets its requests.** Neither the type nor the requests
depend on the context. -/
theorem resolve_eq (owner : String) (context : Context) (key : String) (node : Node) :
    resolve owner context key node =
      (typeOf owner key node, context.emitEach (requestsOf owner key node)) := by
  induction node using Node.induction_children generalizing context key with
  | step node ih =>
    rw [resolve_of_route, typeOf_eq, requestsOf_eq]
    cases hr : route node with
    | items item =>
      have hitem := ih item (Node.mem_children_of_items (items_of_route hr))
      simp only [hitem, Context.emitEach_append, Context.emitEach_request]
    | enumeration => rfl
    | properties entries =>
      have hentries := resolveMembers_eq_of owner fun entry he context key =>
        ih entry.2 (Node.mem_children_of_properties (properties_of_route hr) he) context key
      simp only [hentries]
    | reference name => rfl
    | declared type => rfl

end Emission

end SchemaTypes
