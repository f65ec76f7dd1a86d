import SchemaTypes.Schema.Forms
import SchemaTypes.Proofs.Schema.Ingestion
import Mathlib.Data.List.Forall2

/-!
# Every clause can be reached

A node has one tag and its schema object can have many clauses. Which clause the tag goes to is
settled by their order, and the clause that wins is taken away from those kept beside it. What has
to hold for the others to be of use is that asking a node for a clause gives what its schema object
says there, whichever clause won; and since nodes hold nodes, that this holds all the way down.

## Main definitions

* `Schema.Clauses.shape`: the shape that the first clause of a schema object decides
* `Schema.Additional.entries?`: the map of properties that `additionalProperties` stand for
* `Schema.Node.Keeps`: a node and all nodes in it say what a schema object says

## Main results

* `Schema.Node.keeps_ofClauses`: the node of a schema object keeps its clauses
* `Schema.Node.every_clause_kept`: the same, with what counts as a map of properties
-/

namespace SchemaTypes

namespace Schema

/-! ### The order of clauses -/

/-- The map of properties that `additionalProperties` stand for, if they say anything about
properties. -/
def Additional.entries? {α : Type} : Additional α → Option (List (String × α))
  | .anything => some []
  | .entries found => some found
  | .uninterpreted => none

namespace Clauses

/-- The map of properties that a schema object allows beside its own. -/
def opened (clauses : Clauses) : Option (List (String × Clauses)) :=
  clauses.additional.bind Additional.entries?

/-- The shapes that clauses can decide, in the order of the tag, and whether the clause is there. -/
def candidates (clauses : Clauses) : List (Shape × Bool) :=
  [(.enumeration, clauses.values.isSome),
    (.composition, clauses.allOf.isSome),
    (.openMap, clauses.opened.isSome),
    (.structured, clauses.properties.isSome),
    (.array, clauses.items.isSome),
    (.reference, clauses.reference.isSome)]

/-- The shape that the first clause decides. Without any of them there is only a declared type. -/
def shape (clauses : Clauses) : Shape :=
  ((clauses.candidates.find? Prod.snd).map Prod.fst).getD .primitive

end Clauses

namespace Node

/-! ### Keeping clauses -/

mutual

/-- A node says what a schema object says, and so does every node in it. The properties, the items
and the reference can be asked for whatever the tag; the values of an enum, the parts of a
composition and the entries of an open map only where no clause goes before them. -/
inductive Keeps : Node → Clauses → Prop
  | intro {node : Node} {clauses : Clauses}
      (shape : node.shape = clauses.shape)
      (properties :
        Option.Rel (List.Forall₂ KeepsEntry) node.properties clauses.properties)
      (items : Option.Rel Keeps node.items clauses.items)
      (referenceName : node.referenceName = clauses.reference.map lastSegment)
      (values :
        node.enumValues? = clauses.values.map (List.filterMap EnumValue.ofJson?))
      (parts :
        Option.Rel (List.Forall₂ Keeps) node.parts?
          (if clauses.values.isSome then none else clauses.allOf))
      (openEntries :
        Option.Rel (List.Forall₂ KeepsEntry) node.openEntries?
          (if clauses.values.isSome ∨ clauses.allOf.isSome then none else clauses.opened)) :
      Keeps node clauses

/-- A keyed node keeps a keyed schema object under the same key. -/
inductive KeepsEntry : String × Node → String × Clauses → Prop
  | intro {key : String} {node : Node} {clauses : Clauses} (h : Keeps node clauses) :
      KeepsEntry (key, node) (key, clauses)

end

/-! ### The tag -/

section Choose

variable (description : Option String) (sample : Option Json.Value) (type : Primitive)
  (nullable : Bool) (values : Option (List EnumValue)) (parts : Option (List Node))
  (opened : Option (List (String × Node))) (kept : Shadowed Node)

/-- The parts of a composition and the entries of an open map are there where no clause goes before
them. -/
theorem tagged_choose :
    (choose description sample type nullable values parts opened kept).parts? =
        (if values.isSome then none else parts) ∧
      (choose description sample type nullable values parts opened kept).openEntries? =
        if values.isSome ∨ parts.isSome then none else opened := by
  obtain ⟨_ | _, _ | _, _ | _⟩ := kept <;> cases values <;> cases parts <;> cases opened <;>
    exact ⟨rfl, rfl⟩

end Choose

theorem openedBy_eq (clauses : Clauses) :
    openedBy clauses.additional = clauses.opened.map ofEntries := by
  rw [Clauses.opened]
  obtain _ | _ | _ | _ := clauses.additional <;> rfl

theorem parts?_ofClauses (clauses : Clauses) :
    (ofClauses clauses).parts? =
      if clauses.values.isSome then none else clauses.allOf.map ofParts := by
  rw [ofClauses_eq, (tagged_choose ..).1, Option.isSome_map]

theorem openEntries?_ofClauses (clauses : Clauses) :
    (ofClauses clauses).openEntries? =
      if clauses.values.isSome ∨ clauses.allOf.isSome then none
      else clauses.opened.map ofEntries := by
  rw [ofClauses_eq, (tagged_choose ..).2, openedBy_eq, Option.isSome_map, Option.isSome_map]

/-- The tag goes to the first clause there is. -/
theorem shape_ofClauses (clauses : Clauses) : (ofClauses clauses).shape = clauses.shape := by
  rw [ofClauses_eq, openedBy_eq, Clauses.shape, Clauses.candidates]
  cases clauses.values <;> cases clauses.allOf <;> cases clauses.opened <;>
    cases clauses.properties <;> cases clauses.items <;> cases clauses.reference <;> rfl

/-! ### Every clause is kept -/

section Missing

variable {α β : Type} {r : α → β → Prop}

/-- A clause that may be missing is kept if it is kept where it is there. -/
theorem rel_map_of_mem {f : β → α} {clause : Option β} (h : ∀ b ∈ clause, r (f b) b) :
    Option.Rel r (clause.map f) clause := by
  cases clause with
  | none => exact .none
  | some b => exact .some (h b rfl)

/-- What is given up on both sides is kept all the same. -/
theorem rel_ite_none {a : Option α} {b : Option β} (p : Prop) [Decidable p]
    (h : Option.Rel r a b) :
    Option.Rel r (if p then none else a) (if p then none else b) := by
  split
  · exact .none
  · exact h

end Missing

mutual

/-- **The node of a schema object keeps its clauses**, whichever of them its tag goes to. -/
theorem keeps_ofClauses : ∀ clauses : Clauses, (ofClauses clauses).Keeps clauses
  | ⟨description, sample, declaredType, properties, allOf, additional, items, values, reference,
      nullable⟩ => by
    -- what the recursion gives for the clauses that hold schema objects
    have hproperties : ∀ entries ∈ properties,
        List.Forall₂ KeepsEntry (ofEntries entries) entries := by
      rintro entries rfl
      exact keeps_ofEntries entries
    have hitems : ∀ item ∈ items, (ofClauses item).Keeps item := by
      rintro item rfl
      exact keeps_ofClauses item
    have hparts : ∀ parts ∈ allOf, List.Forall₂ Keeps (ofParts parts) parts := by
      rintro parts rfl
      exact keeps_ofParts parts
    have hopened : ∀ entries ∈ additional.bind Additional.entries?,
        List.Forall₂ KeepsEntry (ofEntries entries) entries := by
      intro entries h
      obtain ⟨said, rfl, hsaid⟩ := Option.bind_eq_some_iff.mp h
      cases said with
      | anything =>
        obtain rfl := Option.some.inj hsaid
        exact .nil
      | entries found =>
        obtain rfl := Option.some.inj hsaid
        exact keeps_ofEntries found
      | uninterpreted => cases hsaid
    have hname : bareName = lastSegment := funext bareName_eq
    refine .intro (shape_ofClauses _) ?_ ?_ ?_ (enumValues?_ofClauses _) ?_ ?_
    · rw [properties_ofClauses]
      exact rel_map_of_mem hproperties
    · rw [items_ofClauses]
      exact rel_map_of_mem hitems
    · rw [referenceName, reference_ofClauses, hname]
    · rw [parts?_ofClauses]
      exact rel_ite_none _ (rel_map_of_mem hparts)
    · rw [openEntries?_ofClauses]
      exact rel_ite_none _ (rel_map_of_mem hopened)

theorem keeps_ofParts : ∀ parts : List Clauses, List.Forall₂ Keeps (ofParts parts) parts
  | [] => .nil
  | part :: rest => .cons (keeps_ofClauses part) (keeps_ofParts rest)

theorem keeps_ofEntries :
    ∀ entries : List (String × Clauses), List.Forall₂ KeepsEntry (ofEntries entries) entries
  | [] => .nil
  | (_, clauses) :: rest => .cons (.intro (keeps_ofClauses clauses)) (keeps_ofEntries rest)

end

/-- **Every clause is kept.** Whatever clauses a schema object has, its node is tagged with the
first of them, and asked for a clause it gives what the schema object says there, which holds of
every node in it too. Of the values that `additionalProperties` can have, `true` and the objects
count as a clause. -/
theorem every_clause_kept :
    (∀ clauses : Clauses, (ofClauses clauses).Keeps clauses) ∧
      ∀ value : Json.Value, (Additional.ofValue value).entries?.isSome = true ↔
        value = .boolean true ∨ ∃ entries, value = .object entries := by
  refine ⟨keeps_ofClauses, fun value => ?_⟩
  cases value with
  | boolean b => cases b <;> simp [Additional.ofValue, Additional.entries?]
  | object entries => simp [Additional.ofValue, Additional.entries?]
  | _ => simp [Additional.ofValue, Additional.entries?]

end Node

end Schema

end SchemaTypes
