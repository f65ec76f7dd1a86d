import SchemaTypes.Schema.Node
import Mathlib.Logic.Relation

/-!
# Nodes inside a node

A node holds other nodes in four of its clauses, and a recursion over nodes goes down one of them at
a time. Every such recursion ends, so what is shown of a node from the nodes it holds is shown of
every node.

## Main definitions

* `Schema.Node.children`: the nodes that a node holds directly
* `Schema.Node.Inside`: a node lies in another one, at any depth

## Main results

* `Schema.Node.induction_children`: induction over the nodes that a node holds
-/

namespace SchemaTypes

namespace Schema

namespace Node

/-- The nodes that a node holds directly. -/
def children (node : Node) : List Node :=
  node.parts?.getD [] ++ (node.openEntries?.getD []).map Prod.snd ++
    (node.properties.getD []).map Prod.snd ++ node.items.toList

theorem mem_children_of_items {node item : Node} (h : node.items = some item) :
    item ∈ node.children := by
  simp [children, h]

theorem mem_children_of_properties {node : Node} {entries : List (String × Node)}
    (h : node.properties = some entries) {entry : String × Node} (he : entry ∈ entries) :
    entry.2 ∈ node.children := by
  have : ∃ key, (key, entry.2) ∈ entries := ⟨entry.1, he⟩
  simp [children, h, this]

theorem mem_children_of_openEntries {node : Node} {entries : List (String × Node)}
    (h : node.openEntries? = some entries) {entry : String × Node} (he : entry ∈ entries) :
    entry.2 ∈ node.children := by
  have : ∃ key, (key, entry.2) ∈ entries := ⟨entry.1, he⟩
  simp [children, h, this]

theorem mem_children_of_parts {node : Node} {parts : List Node} (h : node.parts? = some parts)
    {part : Node} (hp : part ∈ parts) : part ∈ node.children := by
  simp [children, h, hp]

/-- What holds in each clause of a node holds of all nodes that it holds. -/
theorem forall_mem_children {node : Node} {p : Node → Prop}
    (parts : ∀ parts ∈ node.parts?, ∀ part ∈ parts, p part)
    (opened : ∀ entries ∈ node.openEntries?, ∀ entry ∈ entries, p entry.2)
    (properties : ∀ entries ∈ node.properties, ∀ entry ∈ entries, p entry.2)
    (items : ∀ item ∈ node.items, p item) : ∀ child ∈ node.children, p child := by
  intro child h
  simp only [children, List.mem_append, List.mem_map, Option.mem_toList] at h
  rcases h with ((h | ⟨entry, h, rfl⟩) | ⟨entry, h, rfl⟩) | h
  · cases hp : node.parts? with
    | none => simp [hp] at h
    | some found => exact parts found hp child (by simpa [hp] using h)
  · cases ho : node.openEntries? with
    | none => simp [ho] at h
    | some found => exact opened found ho entry (by simpa [ho] using h)
  · cases hp : node.properties with
    | none => simp [hp] at h
    | some found => exact properties found hp entry (by simpa [hp] using h)
  · exact items child h

/-! ### Going down ends -/

theorem sizeOf_lt_of_mem_entries {entries : List (String × Node)} {entry : String × Node}
    (h : entry ∈ entries) : sizeOf entry.2 < sizeOf entries := by
  have hlt : sizeOf entry < sizeOf entries := List.sizeOf_lt_of_mem h
  have heq : sizeOf entry = 1 + sizeOf entry.1 + sizeOf entry.2 := rfl
  omega

theorem sizeOf_lt_of_parts {node : Node} {parts : List Node} (h : node.parts? = some parts) :
    sizeOf parts < sizeOf node := by
  obtain ⟨_, _, _, _, kind, _⟩ := node
  cases kind <;> simp_all [parts?]
  omega

theorem sizeOf_lt_of_openEntries {node : Node} {entries : List (String × Node)}
    (h : node.openEntries? = some entries) : sizeOf entries < sizeOf node := by
  obtain ⟨_, _, _, _, kind, _⟩ := node
  cases kind <;> simp_all [openEntries?]
  omega

theorem sizeOf_lt_of_mem_children {child node : Node} (h : child ∈ node.children) :
    sizeOf child < sizeOf node :=
  forall_mem_children
    (fun _ hp _ hpart => Nat.lt_trans (List.sizeOf_lt_of_mem hpart) (sizeOf_lt_of_parts hp))
    (fun _ ho _ hentry =>
      Nat.lt_trans (sizeOf_lt_of_mem_entries hentry) (sizeOf_lt_of_openEntries ho))
    (fun _ hp _ hentry =>
      Nat.lt_trans (sizeOf_lt_of_mem_entries hentry) (sizeOf_lt_of_properties hp))
    (fun _ hitem => sizeOf_lt_of_items hitem) child h

/-- What holds of a node as soon as it holds of the nodes in it holds of every node. -/
@[elab_as_elim]
theorem induction_children {motive : Node → Prop}
    (step : ∀ node, (∀ child ∈ node.children, motive child) → motive node) (node : Node) :
    motive node :=
  step node fun child _ => induction_children step child
termination_by sizeOf node
decreasing_by exact sizeOf_lt_of_mem_children ‹_›

/-! ### At any depth -/

/-- `inner` is `outer` or lies in it, at any depth. -/
def Inside (inner outer : Node) : Prop :=
  Relation.ReflTransGen (fun child parent => child ∈ parent.children) inner outer

theorem Inside.refl (node : Node) : node.Inside node :=
  Relation.ReflTransGen.refl

/-- What lies in a child lies in its parent. -/
theorem Inside.of_child {inner child parent : Node} (h : inner.Inside child)
    (hc : child ∈ parent.children) : inner.Inside parent :=
  Relation.ReflTransGen.tail h hc

end Node

end Schema

end SchemaTypes
