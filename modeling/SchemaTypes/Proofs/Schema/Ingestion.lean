import SchemaTypes.Schema.Node
import Mathlib.Data.List.TakeWhile

/-!
# The clauses of a schema object in its node

A node is tagged with one clause of its schema object, and the tag takes that clause away from those
kept beside it. Nothing is lost by this: asked for its properties, its items or its reference, a
node gives those of the schema object, whichever clause the tag went to.

## Main definitions

* `Schema.lastSegment`: the last of the segments that slashes separate

## Main results

* `Schema.Node.properties_ofClauses`, `items_ofClauses`, `reference_ofClauses`: the clauses that a
  tag can shadow
* `Schema.Node.isEnum_ofClauses`: the tag of an enum
* `Schema.bareName_eq`: a bare name is a last segment
-/

namespace SchemaTypes

namespace Schema

/-! ### Choosing a tag -/

namespace Node

section Choose

variable (description : Option String) (sample : Option Json.Value) (type : Primitive)
  (nullable : Bool) (values : Option (List EnumValue)) (parts : Option (List Node))
  (opened : Option (List (String × Node))) (kept : Shadowed Node)

/-- The node whose tag is chosen from some clauses. -/
def choose : Node where
  description := description
  sample := sample
  type := type
  nullable := nullable
  kind := (Kind.choose values parts opened kept).1
  shadowed := (Kind.choose values parts opened kept).2

/-- Whichever clause decides the tag, the clauses that a tag can shadow can be asked for, and the
values of an enum decide the tag before any other clause. -/
theorem clauses_choose :
    (choose description sample type nullable values parts opened kept).properties =
        kept.properties ∧
      (choose description sample type nullable values parts opened kept).items = kept.items ∧
      (choose description sample type nullable values parts opened kept).reference =
        kept.reference ∧
      (choose description sample type nullable values parts opened kept).enumValues? = values := by
  obtain ⟨_ | _, _ | _, _ | _⟩ := kept <;> cases values <;> cases parts <;> cases opened <;>
    exact ⟨rfl, rfl, rfl, rfl⟩

end Choose

/-! ### The node of a schema object -/

theorem ofEntries_eq (entries : List (String × Clauses)) :
    ofEntries entries = entries.map fun entry => (entry.1, ofClauses entry.2) := by
  induction entries with
  | nil => rfl
  | cons entry rest ih => rw [ofEntries, ih, List.map_cons]

theorem ofParts_eq (parts : List Clauses) : ofParts parts = parts.map ofClauses := by
  induction parts with
  | nil => rfl
  | cons part rest ih => rw [ofParts, ih, List.map_cons]

/-- The open map that `additionalProperties` stands for, if it says anything about properties. -/
def openedBy : Option (Additional Clauses) → Option (List (String × Node))
  | some .anything => some []
  | some (.entries entries) => some (ofEntries entries)
  | _ => none

/-- Ingestion turns every clause into nodes and chooses the tag among them. -/
theorem ofClauses_eq (clauses : Clauses) :
    ofClauses clauses =
      choose (nonempty clauses.description) clauses.sample clauses.primitive
        (clauses.nullable.getD false) (clauses.values.map (List.filterMap EnumValue.ofJson?))
        (clauses.allOf.map ofParts) (openedBy clauses.additional)
        ⟨clauses.properties.map ofEntries, clauses.items.map ofClauses, clauses.reference⟩ := by
  obtain ⟨_, _, _, properties, allOf, additional, items, _, _, _⟩ := clauses
  cases properties <;> cases allOf <;> cases items <;> obtain _ | _ | _ | _ := additional <;> rfl

@[simp] theorem properties_ofClauses (clauses : Clauses) :
    (ofClauses clauses).properties = clauses.properties.map ofEntries := by
  rw [ofClauses_eq]
  exact (clauses_choose ..).1

@[simp] theorem items_ofClauses (clauses : Clauses) :
    (ofClauses clauses).items = clauses.items.map ofClauses := by
  rw [ofClauses_eq]
  exact (clauses_choose ..).2.1

@[simp] theorem reference_ofClauses (clauses : Clauses) :
    (ofClauses clauses).reference = clauses.reference := by
  rw [ofClauses_eq]
  exact (clauses_choose ..).2.2.1

@[simp] theorem enumValues?_ofClauses (clauses : Clauses) :
    (ofClauses clauses).enumValues? =
      clauses.values.map (List.filterMap EnumValue.ofJson?) := by
  rw [ofClauses_eq]
  exact (clauses_choose ..).2.2.2

@[simp] theorem isEnum_ofClauses (clauses : Clauses) :
    (ofClauses clauses).isEnum = clauses.values.isSome := by
  simp [isEnum]

@[simp] theorem type_ofClauses (clauses : Clauses) :
    (ofClauses clauses).type = clauses.primitive := by
  rw [ofClauses_eq, choose]

end Node

/-! ### Bare names -/

/-- The last of the segments that slashes separate. -/
def lastSegment (path : String) : String :=
  String.ofList ((path.toList.splitOn '/').getLastD [])

/-- A bare name is what follows the last slash, or the whole path if there is none. -/
theorem bareName_eq (path : String) : bareName path = lastSegment path := by
  rw [bareName, lastSegment]
  congr 1
  by_cases h : '/' ∈ path.toList.reverse
  · -- the first slash from behind is the last one
    obtain ⟨segment, front, hpath, hsegment⟩ := List.eq_append_cons_of_mem h
    have hall : ∀ c ∈ segment, decide (c ≠ '/') = true := by
      intro c hc
      exact decide_eq_true fun heq => hsegment (heq ▸ hc)
    have hforth : path.toList = front.reverse ++ '/' :: segment.reverse := by
      rw [← List.reverse_reverse path.toList, hpath]
      simp
    have hsplit : segment.reverse.splitOn '/' = [segment.reverse] :=
      List.splitOn_eq_singleton (by simpa using hsegment)
    rw [hpath, List.takeWhile_append_of_pos hall, hforth, List.splitOn_append_cons_self, hsplit]
    simp
  · have hall : ∀ c ∈ path.toList.reverse, decide (c ≠ '/') = true := by
      intro c hc
      exact decide_eq_true fun heq => h (heq ▸ hc)
    have hsplit : path.toList.splitOn '/' = [path.toList] :=
      List.splitOn_eq_singleton (by simpa using h)
    rw [List.takeWhile_eq_self_iff.mpr hall, List.reverse_reverse, hsplit]
    rfl

end Schema

end SchemaTypes
