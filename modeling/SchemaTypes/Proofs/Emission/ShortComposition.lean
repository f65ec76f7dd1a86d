import SchemaTypes.Proofs.Emission.Effect
import SchemaTypes.Proofs.Schema.Reachable

/-!
# Compositions without an extension

A composition is a base and an extension, and its record is made of the properties of the extension.
One with fewer than two parts has no extension, so it has no properties to offer, whatever other
clauses stand beside its parts. That does not leave the record empty. A definition that has no
properties to offer gives its items one member, and a short composition is such a definition: of all
the clauses that stand beside its parts, the items still count.

## Main results

* `Emission.memberSource_of_short`: only the items of a short composition count
* `Emission.emitDefinition_of_short`: what a short composition is emitted as
* `Emission.emitDefinition_short`: exactly when this is an empty record and nothing else
* `Emission.not_every_short_empty`: one that is not
-/

namespace SchemaTypes

namespace Emission

open Schema TypeScript

/-! ### The source of members -/

theorem memberSource_of_properties?_eq_none {definition : Node}
    (h : properties? definition = none) :
    memberSource definition = definition.items.toList.map fun item => ("items", item) := by
  rw [memberSource, h]
  cases definition.items <;> rfl

section Short

variable {definition : Node} {parts : List Node} (hparts : definition.parts? = some parts)
  (hshort : parts.length < 2)

include hparts

theorem kind_of_parts? : definition.kind = .composition parts := by
  rw [Node.parts?] at hparts
  split at hparts
  · next kindParts hkind => rw [hkind, Option.some.inj hparts]
  · cases hparts

include hshort

theorem properties?_of_short : properties? definition = none := by
  have hextension : parts[1]? = none := List.getElem?_eq_none (Nat.le_of_lt_succ hshort)
  rw [properties?, kind_of_parts? hparts]
  show parts[1]?.bind Node.properties = none
  rw [hextension, Option.bind_none]

theorem memberSource_of_short :
    memberSource definition = definition.items.toList.map fun item => ("items", item) :=
  memberSource_of_properties?_eq_none (properties?_of_short hparts hshort)

/-- **A short composition** becomes a record with a member for its items, if it has any, and asks
for the enums of that member. -/
theorem emitDefinition_of_short (context : Context) (name : String) :
    emitDefinition context name definition =
      (context.pushRecord
        ⟨name, some (describe definition),
          definition.items.toList.map (memberOf name "items")⟩).1.emitEach
        (definition.items.toList.flatMap (memberRequests name "items")) := by
  have henum : definition.isEnum = false := by
    rw [Node.isEnum, Node.enumValues?, kind_of_parts? hparts]
    rfl
  rw [emitDefinition_of_record context name henum, recordOf, hoistsOf,
    memberSource_of_short hparts hshort, List.map_map, List.flatMap_map]
  rfl

end Short

/-! ### Schema objects -/

/-- **What becomes of a composition without an extension.** It is emitted as a record behind the
declarations that are there. Of the clauses beside its parts only the items count: they become the
one member of the record, and the enums that this asks for are hoisted. So the record is empty, and
nothing is hoisted, exactly if there are no items. -/
theorem emitDefinition_short (context : Context) (name : String) {clauses : Clauses}
    {parts : List Clauses} (hvalues : clauses.values = none) (hparts : clauses.allOf = some parts)
    (hshort : parts.length < 2) :
    emitDefinition context name (Node.ofClauses clauses) =
        (context.pushRecord
          ⟨name, some (describe (Node.ofClauses clauses)),
            clauses.items.toList.map fun item =>
              memberOf name "items" (Node.ofClauses item)⟩).1.emitEach
          (clauses.items.toList.flatMap fun item =>
            memberRequests name "items" (Node.ofClauses item)) ∧
      (emitDefinition context name (Node.ofClauses clauses) =
          (context.pushRecord ⟨name, some (describe (Node.ofClauses clauses)), []⟩).1 ↔
        clauses.items = none) := by
  have hnode : (Node.ofClauses clauses).parts? = some (Node.ofParts parts) := by
    rw [Node.parts?_ofClauses, hvalues, hparts]
    rfl
  have hlength : (Node.ofParts parts).length < 2 := by
    rw [Node.ofParts_eq, List.length_map]
    exact hshort
  rw [emitDefinition_of_short hnode hlength, Node.items_ofClauses]
  cases hitems : clauses.items with
  | none => exact ⟨rfl, iff_of_true rfl rfl⟩
  | some item =>
    refine ⟨rfl, iff_of_false (fun hempty => ?_) (Option.some_ne_none item)⟩
    -- the record has a member for the items
    rw [Context.emitEach_eq] at hempty
    have hdeclarations := congrArg Context.declarations hempty
    simp [Context.pushRecord] at hdeclarations

def thinBase : Clauses where
  reference := some "#/definitions/Base"

/-- A composition of a base alone, with properties of its own. -/
def thin : Clauses where
  declaredType := some (.text "object")
  properties := some [("name", { values := some [.text "a"] })]
  allOf := some [thinBase]
  additional := some (.entries [("rest", .empty)])
  reference := some "#/definitions/Other"

/-- The record of the composition is empty. -/
theorem emitDefinition_short_thin :
    thin.values = none ∧ thin.allOf = some [thinBase] ∧ [thinBase].length < 2 ∧
      emitDefinition .empty "Thin" (Node.ofClauses thin) =
        (Context.empty.pushRecord ⟨"Thin", some "\n", []⟩).1 := by
  have hvalues : thin.values = none := rfl
  have hparts : thin.allOf = some [thinBase] := rfl
  have hshort : [thinBase].length < 2 := by decide
  obtain ⟨-, hempty⟩ := emitDefinition_short .empty "Thin" hvalues hparts hshort
  exact ⟨hvalues, hparts, hshort, hempty.mpr rfl⟩

/-- A composition without an extension need not become an empty record. -/
theorem not_every_short_empty :
    ¬ ∀ (context : Context) (name : String) (clauses : Clauses) (parts : List Clauses),
      clauses.values = none → clauses.allOf = some parts → parts.length < 2 →
        emitDefinition context name (Node.ofClauses clauses) =
          (context.pushRecord ⟨name, some (describe (Node.ofClauses clauses)), []⟩).1 := by
  intro h
  have hempty := h .empty "Thin" { allOf := some [], items := some .empty } [] rfl rfl (by decide)
  have hmember : (emitDefinition .empty "Thin"
      (Node.ofClauses { allOf := some [], items := some .empty })).declarations =
      [.record ⟨"Thin", some "\n", [⟨"items", "any", some "\n", false⟩]⟩] := by
    decide +kernel
  rw [hempty] at hmember
  exact absurd hmember (by decide)

end Emission

end SchemaTypes
