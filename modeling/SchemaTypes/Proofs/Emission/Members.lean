import SchemaTypes.Proofs.Emission.ClauseOrder
import SchemaTypes.Proofs.Emission.Effect
import SchemaTypes.Schema.Forms
import Mathlib

/-!
# The clause order of members

A record takes its members from one clause of its definition, and the order in which the clauses are
asked is not the one that tags the definition. A composition gives the properties of its second
part, even if a map of properties has taken the tag of that part. Then come the map of
`additionalProperties`, the properties, and the items, which become one member. As for types, the
order is written down on the schema object as it is written, and shown to be what comes out when the
schema object is first tagged and then emitted.

## Main definitions

* `Schema.openMap?`: the map of properties that a value of `additionalProperties` stands for
* `Schema.Clauses.memberSource`: the properties that a schema object makes members of
* `Schema.Clauses.member`: the member for a property
* `TypeScript.TypeExpr.keys`: the keys of objects that are spelled out in a type

## Main results

* `Emission.memberSource_ofClauses`: tagging leaves the source of members alone
* `Emission.notMem_keys_memberExpr`: no key in a type holds a dot or a hyphen
* `Emission.emitDefinition_members`: the record that is emitted for a schema object
-/

namespace SchemaTypes

namespace Schema

open TypeScript

/-! ### The members of a schema object -/

/-- The entries of an object that are schema objects. -/
def schemasAmong (entries : List (String × Json.Value)) : List (String × Clauses) :=
  entries.filterMap fun entry =>
    match Clauses.ofValue entry.2 with
    | .ok schema => some (entry.1, schema)
    | .error _ => none

/-- The map of properties that a value of `additionalProperties` stands for. `true` allows any
property and names none. -/
def openMap? : Json.Value → Option (List (String × Clauses))
  | .boolean true => some []
  | .object entries => some (schemasAmong entries)
  | _ => none

namespace Clauses

/-- The properties that a schema object has to offer, where `additional` is the value that its
`additionalProperties` are written as. Of a composition only the second part counts, and only its
properties. -/
def offered (additional : Option Json.Value) (clauses : Clauses) :
    Option (List (String × Clauses)) :=
  match clauses.allOf with
  | some parts => parts[1]?.bind Clauses.properties
  | none =>
    match additional.bind openMap? with
    | some entries => some entries
    | none => clauses.properties

/-- The properties that a schema object makes members of: those that it has to offer, else its
items. -/
def memberSource (additional : Option Json.Value) (clauses : Clauses) : List (String × Clauses) :=
  match clauses.offered additional, clauses.items with
  | some entries, _ => entries
  | none, some item => [("items", item)]
  | none, none => []

/-- The type of the member for a property of the definition `owner`. An enum is only named. -/
def memberExpr (owner property : String) (clauses : Clauses) : TypeExpr :=
  if clauses.values.isSome then .named (owner ++ normalizeKey property)
  else clauses.typeExpr owner (normalizeKey property)

/-- The member for a property of the definition `owner`. -/
def member (owner property : String) (clauses : Clauses) : RecordMember where
  name := normalizeKey property
  type := (clauses.memberExpr owner property).render
  doc := some (Emission.describe (Node.ofClauses clauses))
  optional := clauses.nullable = some true

end Clauses

end Schema

namespace TypeScript

namespace TypeExpr

mutual

/-- The keys of the objects that are spelled out in a type, at any depth. -/
def keys : TypeExpr → List String
  | primitive _ => []
  | named _ => []
  | array element => element.keys
  | object members => keysOfMembers members

/-- The keys of members, and those in their types. -/
def keysOfMembers : List (String × TypeExpr) → List String
  | [] => []
  | (key, type) :: rest => key :: type.keys ++ keysOfMembers rest

end

theorem mem_keysOfMembers {members : List (String × TypeExpr)} {key : String} :
    key ∈ keysOfMembers members ↔
      ∃ member ∈ members, key = member.1 ∨ key ∈ member.2.keys := by
  induction members with
  | nil => simp [keysOfMembers]
  | cons member rest ih => simp [keysOfMembers, ih, or_assoc]

end TypeExpr

theorem notMem_normalizeKey {c : Char} (hc : c = '.' ∨ c = '-') (property : String) :
    c ∉ (normalizeKey property).toList := by
  rw [normalizeKey, String.toList_ofList]
  intro hmem
  obtain ⟨d, -, hd⟩ := List.mem_map.mp hmem
  rw [normalizeChar] at hd
  split at hd
  · next h =>
    subst hd
    revert hc
    decide
  · next h => exact h (hd ▸ hc)

end TypeScript

namespace Emission

open Schema TypeScript

/-! ### The source of members -/

theorem openedBy_ofValue (additional : Option Json.Value) :
    Node.openedBy (additional.map Additional.ofValue) =
      (additional.bind openMap?).map Node.ofEntries := by
  rcases additional with - | (- | b | - | - | - | entries)
  case some.boolean => cases b <;> rfl
  all_goals rfl

theorem properties?_ofClauses {clauses : Clauses} {additional : Option Json.Value}
    (hadditional : clauses.additional = additional.map Additional.ofValue)
    (henum : clauses.values = none) :
    properties? (Node.ofClauses clauses) = (clauses.offered additional).map Node.ofEntries := by
  rw [Node.ofClauses_eq, henum, hadditional, openedBy_ofValue, Clauses.offered, properties?,
    Node.choose]
  cases clauses.allOf with
  | some parts =>
    show (Node.ofParts parts)[1]?.bind Node.properties =
      (parts[1]?.bind Clauses.properties).map Node.ofEntries
    rw [Node.ofParts_eq, List.getElem?_map]
    cases parts[1]? with
    | none => rfl
    | some part => exact Node.properties_ofClauses part
  | none =>
    cases additional.bind openMap? with
    | some entries => rfl
    | none => cases clauses.properties <;> cases clauses.items <;> cases clauses.reference <;> rfl

/-- **Tagging leaves the source of members alone**, whichever clause the tag takes. -/
theorem memberSource_ofClauses {clauses : Clauses} {additional : Option Json.Value}
    (hadditional : clauses.additional = additional.map Additional.ofValue)
    (henum : clauses.values = none) :
    memberSource (Node.ofClauses clauses) = Node.ofEntries (clauses.memberSource additional) := by
  rw [memberSource, properties?_ofClauses hadditional henum, Node.items_ofClauses,
    Clauses.memberSource]
  cases clauses.offered additional <;> cases clauses.items <;> rfl

/-! ### Members -/

theorem memberOf_ofClauses (owner property : String) (clauses : Clauses) :
    memberOf owner property (Node.ofClauses clauses) = clauses.member owner property := by
  have hnullable : (Node.ofClauses clauses).nullable = decide (clauses.nullable = some true) := by
    rw [Node.ofClauses_eq, Node.choose]
    rcases clauses.nullable with - | b
    · rfl
    · cases b <;> rfl
  rw [memberOf, memberType, Node.isEnum_ofClauses, typeOf_ofClauses, hnullable, Clauses.member,
    Clauses.memberExpr]

theorem exists_normalizeKey_of_mem_keys {owner key name : String} {node : Node}
    (h : name ∈ (typeOf owner key node).keys) : ∃ property, name = normalizeKey property := by
  induction node using Node.induction_children generalizing key with
  | step node ih =>
    rw [typeOf_eq] at h
    cases hr : route node with
    | items item =>
      rw [hr] at h
      exact ih item (Node.mem_children_of_items (items_of_route hr)) h
    | properties entries =>
      rw [hr] at h
      obtain ⟨member, hmember, hname⟩ := TypeExpr.mem_keysOfMembers.mp h
      obtain ⟨entry, hentry, rfl⟩ := List.mem_map.mp hmember
      rcases hname with rfl | hinner
      · exact ⟨entry.1, rfl⟩
      · exact ih entry.2 (Node.mem_children_of_properties (properties_of_route hr) hentry) hinner
    | enumeration | reference | declared =>
      rw [hr] at h
      exact absurd h List.not_mem_nil

/-- **No key in the type of a member holds a dot or a hyphen**, at any depth. -/
theorem notMem_keys_memberExpr {c : Char} (hc : c = '.' ∨ c = '-') {owner property key : String}
    {clauses : Clauses} (h : key ∈ (clauses.memberExpr owner property).keys) : c ∉ key.toList := by
  rw [Clauses.memberExpr] at h
  split at h
  · exact absurd h List.not_mem_nil
  · rw [← typeOf_ofClauses] at h
    obtain ⟨inner, rfl⟩ := exists_normalizeKey_of_mem_keys h
    exact notMem_normalizeKey hc inner

/-- **The record of a schema object** stands behind the declarations that are there, and only enums
follow it. It has one member for each property that the clauses make a member, in their order. The
type of a member that is no enum is the one that resolving the node of the property gives, whatever
the context holds, and neither the name of a member nor a key in its type holds a dot or a
hyphen. -/
theorem emitDefinition_members (context : Context) (name : String) {clauses : Clauses}
    {additional : Option Json.Value}
    (hadditional : clauses.additional = additional.map Additional.ofValue)
    (henum : clauses.values = none) :
    (∃ hoisted : List EnumDeclaration,
      (emitDefinition context name (Node.ofClauses clauses)).declarations =
        context.declarations ++
          .record
            { name := name
              doc := some (describe (Node.ofClauses clauses))
              members := (clauses.memberSource additional).map fun entry =>
                entry.2.member name entry.1 } ::
          hoisted.map .enumeration) ∧
    ∀ entry ∈ clauses.memberSource additional,
      (entry.2.values = none → ∀ before,
        (resolve name before (normalizeKey entry.1) (Node.ofClauses entry.2)).1 =
          entry.2.memberExpr name entry.1) ∧
      ∀ c, c = '.' ∨ c = '-' → c ∉ (normalizeKey entry.1).toList ∧
        ∀ key ∈ (entry.2.memberExpr name entry.1).keys, c ∉ key.toList := by
  constructor
  · have hmembers : (memberSource (Node.ofClauses clauses)).map
        (fun entry => memberOf name entry.1 entry.2) =
        (clauses.memberSource additional).map fun entry => entry.2.member name entry.1 := by
      rw [memberSource_ofClauses hadditional henum, Node.ofEntries_eq, List.map_map]
      exact List.map_congr_left fun entry _ => memberOf_ofClauses name entry.1 entry.2
    have hisEnum : (Node.ofClauses clauses).isEnum = false := by
      rw [Node.isEnum_ofClauses, henum]
      rfl
    refine ⟨(kept context.enumNames (hoistsOf name (Node.ofClauses clauses))).map Request.enum, ?_⟩
    rw [emitDefinition_of_record context name hisEnum, Context.emitEach_eq, Context.pushRecord,
      recordOf, hmembers, List.append_assoc, List.singleton_append, List.map_map]
    rfl
  · intro entry _
    refine ⟨fun hvalues before => ?_, fun c hc => ?_⟩
    · rw [resolve_eq, typeOf_ofClauses, Clauses.memberExpr, hvalues]
      rfl
    · exact ⟨notMem_normalizeKey hc entry.1, fun key => notMem_keys_memberExpr hc⟩

/-- A composition with clauses of every kind beside it. A map of properties takes the tag of its
second part. -/
def crate : Clauses where
  allOf := some
    [{ reference := some "#/definitions/Box" },
     { additional := some .anything
       properties := some
        [("max.size", { declaredType := some (.text "integer"), nullable := some true }),
         ("grade", { values := some [.text "A"] }),
         ("inner-box",
          { declaredType := some (.text "object")
            properties := some [("a.b", { reference := some "#/definitions/Lid" })] })] }]
  additional := some (.entries [])
  properties := some [("unused", .empty)]
  items := some .empty

theorem emitDefinition_members_crate :
    crate.additional = (some (Json.Value.object [])).map Additional.ofValue ∧
      crate.values = none ∧
      ∃ hoisted : List EnumDeclaration,
        (emitDefinition .empty "Crate" (Node.ofClauses crate)).declarations =
          .record
            { name := "Crate"
              doc := some "\n"
              members :=
                [⟨"max_size", "number", some "\n", true⟩,
                 ⟨"grade", "Crategrade", some "\n", false⟩,
                 ⟨"inner_box", "\x7b a_b: Lid \x7d", some "\n", false⟩] } ::
          hoisted.map .enumeration := by
  have hadditional : crate.additional = (some (Json.Value.object [])).map Additional.ofValue := rfl
  have hvalues : crate.values = none := rfl
  refine ⟨hadditional, hvalues, ?_⟩
  obtain ⟨⟨hoisted, hrecord⟩, -⟩ := emitDefinition_members .empty "Crate" hadditional hvalues
  have hmembers : (crate.memberSource (some (.object []))).map
      (fun entry => entry.2.member "Crate" entry.1) =
      [⟨"max_size", "number", some "\n", true⟩,
       ⟨"grade", "Crategrade", some "\n", false⟩,
       ⟨"inner_box", "\x7b a_b: Lid \x7d", some "\n", false⟩] := by
    cbv
  rw [hmembers] at hrecord
  exact ⟨hoisted, hrecord⟩

end Emission

end SchemaTypes
