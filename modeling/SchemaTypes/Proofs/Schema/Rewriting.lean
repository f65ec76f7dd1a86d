import SchemaTypes.Proofs.Schema.Children
import SchemaTypes.Schema.Document

/-!
# Rewriting every node

Some of what a node holds has no part in its shape: its description, its sample, and the path in
front of the name that it refers to. A rewriting changes these in a node and in every node inside
it, whether a clause is the tag of its node or shadowed by the tag. All clauses stay where they are,
so the clauses of a rewritten node are the rewritten clauses.

## Main definitions

* `Schema.Rewriting`: a change of descriptions, samples and references
* `Schema.Node.rewrite`, `Schema.Document.rewrite`: every node rewritten
* `Schema.Node.undocumented`, `Schema.Document.undocumented`: no node documented

## Main results

* `Schema.Node.properties_rewrite`, `items_rewrite`, `reference_rewrite`, `enumValues?_rewrite`: the
  clauses of a rewritten node
* `Schema.Node.children_rewrite`: the nodes in a rewritten node
-/

namespace SchemaTypes

namespace Schema

/-- A change of what has no part in the shape of a node. -/
structure Rewriting where
  description : Option String → Option String
  sample : Option Json.Value → Option Json.Value
  reference : String → String

/-- Leaves the name alone that a reference ends with. -/
def Rewriting.KeepsNames (change : Rewriting) : Prop :=
  ∀ path, bareName (change.reference path) = bareName path

namespace Node

mutual

/-- The node with every node in it rewritten, itself included. -/
def rewrite (change : Rewriting) : Node → Node
  | ⟨description, sample, type, nullable, kind, shadowed⟩ =>
    { description := change.description description
      sample := change.sample sample
      type := type
      nullable := nullable
      kind := rewriteKind change kind
      shadowed := rewriteShadowed change shadowed }

/-- A tag with every node rewritten. -/
def rewriteKind (change : Rewriting) : Kind Node → Kind Node
  | .enumeration values => .enumeration values
  | .composition parts => .composition (rewriteParts change parts)
  | .openMap entries => .openMap (rewriteEntries change entries)
  | .structured entries => .structured (rewriteEntries change entries)
  | .array item => .array (rewrite change item)
  | .reference path => .reference (change.reference path)
  | .primitive => .primitive

/-- Shadowed clauses with every node rewritten. -/
def rewriteShadowed (change : Rewriting) : Shadowed Node → Shadowed Node
  | ⟨properties, items, reference⟩ =>
    { properties := rewriteProperties change properties
      items := rewriteItems change items
      reference := reference.map change.reference }

/-- Properties with every node rewritten, if there are any. -/
def rewriteProperties (change : Rewriting) :
    Option (List (String × Node)) → Option (List (String × Node))
  | some entries => some (rewriteEntries change entries)
  | none => none

/-- Items with every node rewritten, if there are any. -/
def rewriteItems (change : Rewriting) : Option Node → Option Node
  | some item => some (rewrite change item)
  | none => none

/-- Parts with every node rewritten. -/
def rewriteParts (change : Rewriting) : List Node → List Node
  | [] => []
  | part :: rest => rewrite change part :: rewriteParts change rest

/-- Entries with every node rewritten. -/
def rewriteEntries (change : Rewriting) : List (String × Node) → List (String × Node)
  | [] => []
  | (key, node) :: rest => (key, rewrite change node) :: rewriteEntries change rest

end

variable (change : Rewriting)

/-- An entry with its node rewritten. -/
def rewriteEntry (entry : String × Node) : String × Node :=
  (entry.1, entry.2.rewrite change)

theorem rewriteParts_eq (parts : List Node) :
    rewriteParts change parts = parts.map (rewrite change) := by
  induction parts with
  | nil => rfl
  | cons part rest ih => rw [rewriteParts, ih, List.map_cons]

theorem rewriteEntries_eq (entries : List (String × Node)) :
    rewriteEntries change entries = entries.map (rewriteEntry change) := by
  induction entries with
  | nil => rfl
  | cons entry rest ih =>
    rw [rewriteEntries, ih, List.map_cons]
    rfl

/-! ### The clauses of a rewritten node -/

@[simp] theorem description_rewrite (node : Node) :
    (node.rewrite change).description = change.description node.description := by
  cases node
  rfl

@[simp] theorem sample_rewrite (node : Node) :
    (node.rewrite change).sample = change.sample node.sample := by
  cases node
  rfl

@[simp] theorem type_rewrite (node : Node) : (node.rewrite change).type = node.type := by
  cases node
  rfl

@[simp] theorem nullable_rewrite (node : Node) :
    (node.rewrite change).nullable = node.nullable := by
  cases node
  rfl

@[simp] theorem enumValues?_rewrite (node : Node) :
    (node.rewrite change).enumValues? = node.enumValues? := by
  obtain ⟨_, _, _, _, kind, _⟩ := node
  cases kind <;> rfl

@[simp] theorem isEnum_rewrite (node : Node) : (node.rewrite change).isEnum = node.isEnum := by
  rw [isEnum, enumValues?_rewrite, isEnum]

@[simp] theorem parts?_rewrite (node : Node) :
    (node.rewrite change).parts? = node.parts?.map (List.map (rewrite change)) := by
  obtain ⟨_, _, _, _, kind, _⟩ := node
  cases kind with
  | composition parts => exact congrArg some (rewriteParts_eq change parts)
  | _ => rfl

@[simp] theorem openEntries?_rewrite (node : Node) :
    (node.rewrite change).openEntries? =
      node.openEntries?.map (List.map (rewriteEntry change)) := by
  obtain ⟨_, _, _, _, kind, _⟩ := node
  cases kind with
  | openMap entries => exact congrArg some (rewriteEntries_eq change entries)
  | _ => rfl

@[simp] theorem properties_rewrite (node : Node) :
    (node.rewrite change).properties = node.properties.map (List.map (rewriteEntry change)) := by
  obtain ⟨_, _, _, _, kind, properties, _, _⟩ := node
  cases kind with
  | structured entries => exact congrArg some (rewriteEntries_eq change entries)
  | _ =>
    cases properties with
    | none => rfl
    | some entries => exact congrArg some (rewriteEntries_eq change entries)

@[simp] theorem items_rewrite (node : Node) :
    (node.rewrite change).items = node.items.map (rewrite change) := by
  obtain ⟨_, _, _, _, kind, _, items, _⟩ := node
  cases kind <;> cases items <;> rfl

@[simp] theorem reference_rewrite (node : Node) :
    (node.rewrite change).reference = node.reference.map change.reference := by
  obtain ⟨_, _, _, _, kind, _, _, reference⟩ := node
  cases kind <;> rfl

theorem referenceName_rewrite {change : Rewriting} (h : change.KeepsNames) (node : Node) :
    (node.rewrite change).referenceName = node.referenceName := by
  rw [referenceName, reference_rewrite, Option.map_map, referenceName]
  exact congrArg (node.reference.map ·) (funext h)

/-- The nodes in a rewritten node are rewritten. -/
theorem children_rewrite (node : Node) :
    (node.rewrite change).children = node.children.map (rewrite change) := by
  have hentry : Prod.snd ∘ rewriteEntry change = rewrite change ∘ Prod.snd := rfl
  rw [children, children, parts?_rewrite, openEntries?_rewrite, properties_rewrite, items_rewrite]
  cases node.parts? <;> cases node.openEntries? <;> cases node.properties <;>
    cases node.items <;> simp [hentry]

/-- Whatever lies in a rewritten node is rewritten. -/
theorem Inside.of_rewrite {change : Rewriting} {inner outer : Node}
    (h : inner.Inside (outer.rewrite change)) :
    ∃ origin : Node, origin.Inside outer ∧ inner = origin.rewrite change := by
  obtain ⟨whole, hwhole⟩ : ∃ whole, outer.rewrite change = whole := ⟨_, rfl⟩
  rw [hwhole] at h
  induction h generalizing outer with
  | refl => exact ⟨outer, .refl outer, hwhole.symm⟩
  | tail hinner hmem ih =>
    rw [← hwhole, children_rewrite] at hmem
    obtain ⟨child, hchild, hrewritten⟩ := List.mem_map.mp hmem
    obtain ⟨origin, horigin, heq⟩ := ih hrewritten
    exact ⟨origin, horigin.of_child hchild, heq⟩

/-! ### Documentation -/

/-- The rewriting that clears descriptions and samples. -/
def undocumenting : Rewriting where
  description _ := none
  sample _ := none
  reference := id

theorem keepsNames_undocumenting : undocumenting.KeepsNames := fun _ => rfl

/-- The node without descriptions and samples, at any depth. -/
def undocumented (node : Node) : Node :=
  node.rewrite undocumenting

/-- No node in an undocumented node is documented. -/
theorem not_documented_of_inside {inner node : Node} (h : inner.Inside node.undocumented) :
    inner.description = none ∧ inner.sample = none := by
  obtain ⟨origin, -, rfl⟩ := Inside.of_rewrite h
  exact ⟨description_rewrite undocumenting origin, sample_rewrite undocumenting origin⟩

end Node

namespace Document

/-- The document with every node rewritten. -/
def rewrite (change : Rewriting) (document : Document) : Document where
  definitions := document.definitions.map (Node.rewriteEntry change)

/-- The document without descriptions and samples, at any depth. -/
def undocumented (document : Document) : Document :=
  document.rewrite Node.undocumenting

/-- A rewritten document accepts the same selections. -/
theorem select_rewrite (change : Rewriting) (document : Document) (names : List String) :
    (document.rewrite change).select names =
      (document.select names).map (List.map (Node.rewriteEntry change)) := by
  have hdefines : ∀ name, (document.rewrite change).defines name = document.defines name := by
    intro name
    rw [defines, rewrite, List.any_map]
    rfl
  have hchosen : (document.rewrite change).definitions.filter (fun definition =>
      names.isEmpty || names.contains definition.1) =
      (document.definitions.filter fun definition =>
        names.isEmpty || names.contains definition.1).map (Node.rewriteEntry change) := by
    rw [rewrite, List.filter_map]
    rfl
  rw [select, select, funext hdefines, hchosen]
  cases names.find? fun name => !document.defines name <;> rfl

end Document

end Schema

end SchemaTypes
