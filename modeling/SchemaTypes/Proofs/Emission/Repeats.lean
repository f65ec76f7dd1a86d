import SchemaTypes.Proofs.Emission.Declared
import SchemaTypes.Proofs.Schema.Keys
import SchemaTypes.Proofs.TypeScript.Alike
import Mathlib

/-!
# Members with one name

A record has a member for each of its properties, an object that is spelled out in a type has one
for each of the properties of its node, and an enum has one for each value. Properties have distinct
keys. So members have one name where their names are made alike, and nowhere else: no member is
emitted twice, and none is renamed or left out.

## Main definitions

* `TypeScript.TypeExpr.objects`: the objects that are spelled out in a type, as names of members
* `Emission.StandFor`: names of members that stand for distinct keys

## Main results

* `Emission.standFor_of_mem_objects`: the objects in the type of a node
* `Emission.run_repeats`: the members of a run that have one name
-/

namespace SchemaTypes

namespace TypeScript

namespace TypeExpr

mutual

/-- The objects that are spelled out in a type, at any depth, as the names of their members. -/
def objects : TypeExpr → List (List String)
  | primitive _ => []
  | named _ => []
  | array element => element.objects
  | object members => members.map Prod.fst :: objectsOfMembers members

/-- The objects that are spelled out in the types of members. -/
def objectsOfMembers : List (String × TypeExpr) → List (List String)
  | [] => []
  | (_, type) :: rest => type.objects ++ objectsOfMembers rest

end

theorem mem_objectsOfMembers {members : List (String × TypeExpr)} {names : List String} :
    names ∈ objectsOfMembers members ↔ ∃ member ∈ members, names ∈ member.2.objects := by
  induction members with
  | nil => simp [objectsOfMembers]
  | cons member rest ih => simp [objectsOfMembers, ih]

end TypeExpr

end TypeScript

namespace Emission

open Schema TypeScript

/-- The names of members that stand for distinct keys, in their order. Two of them are the same
exactly if their keys agree but for their separators. -/
structure StandFor (names keys : List String) : Prop where
  distinct : keys.Nodup
  length : names.length = keys.length
  same : (names.zip keys).Pairwise fun a b => a.1 = b.1 ↔ Alike a.2 b.2

theorem standFor_normalizeKey {keys : List String} (h : keys.Nodup) :
    StandFor (keys.map normalizeKey) keys := by
  refine ⟨h, List.length_map _, ?_⟩
  have hzip := List.zip_map' (f := normalizeKey) (g := id) (l := keys)
  rw [List.map_id] at hzip
  rw [hzip, List.pairwise_map]
  exact List.pairwise_of_forall fun a b => normalizeKey_eq_iff

/-! ### Objects in types -/

/-- **The objects in the type of a node** stand for the properties of nodes in it. -/
theorem standFor_of_mem_objects {owner key : String} {node : Node} (hkeyed : node.Keyed)
    {names : List String} (h : names ∈ (typeOf owner key node).objects) :
    ∃ inner : Node, inner.Inside node ∧
      ∃ properties ∈ inner.properties, StandFor names (properties.map Prod.fst) := by
  induction node using Node.induction_children generalizing key with
  | step node ih =>
    have hchild : ∀ child ∈ node.children, child.Keyed := fun child hchild inner hinner =>
      hkeyed inner (hinner.of_child hchild)
    rw [typeOf_eq] at h
    cases hr : route node with
    | items item =>
      rw [hr] at h
      have hitem := Node.mem_children_of_items (items_of_route hr)
      obtain ⟨inner, hinner, hproperties⟩ := ih item hitem (hchild item hitem) h
      exact ⟨inner, hinner.of_child hitem, hproperties⟩
    | properties entries =>
      have hentries := properties_of_route hr
      rw [hr] at h
      rcases List.mem_cons.mp h with rfl | h
      · refine ⟨node, .refl node, entries, hentries, ?_⟩
        have hstand :=
          standFor_normalizeKey ((hkeyed node (.refl node)).properties entries hentries)
        rw [List.map_map] at hstand ⊢
        exact hstand
      · obtain ⟨member, hmember, hnames⟩ := TypeExpr.mem_objectsOfMembers.mp h
        obtain ⟨entry, hentry, rfl⟩ := List.mem_map.mp hmember
        have hin := Node.mem_children_of_properties hentries hentry
        obtain ⟨inner, hinner, hproperties⟩ := ih entry.2 hin (hchild entry.2 hin) hnames
        exact ⟨inner, hinner.of_child hin, hproperties⟩
    | enumeration | reference | declared =>
      rw [hr] at h
      exact absurd h List.not_mem_nil

theorem standFor_of_mem_memberTypes {owner : String} {definition : Node}
    (hkeyed : definition.Keyed) {type : TypeExpr} (ht : type ∈ memberTypes owner definition)
    {names : List String} (h : names ∈ type.objects) :
    ∃ inner : Node, inner.Inside definition ∧
      ∃ properties ∈ inner.properties, StandFor names (properties.map Prod.fst) := by
  obtain ⟨entry, hentry, rfl⟩ := List.mem_map.mp ht
  have hinside := inside_of_mem_memberSource hentry
  rw [memberType] at h
  split at h
  · exact absurd h List.not_mem_nil
  · obtain ⟨inner, hinner, hproperties⟩ :=
      standFor_of_mem_objects (fun inner hinner => hkeyed inner (hinner.trans hinside)) h
    exact ⟨inner, hinner.trans hinside, hproperties⟩

/-! ### Records -/

/-- A record is made of properties with distinct keys. -/
theorem nodup_memberSource {definition : Node} (h : definition.Keyed) :
    ((memberSource definition).map Prod.fst).Nodup := by
  obtain ⟨inner, hinner, hheld⟩ | ⟨item, -, hsource⟩ | hsource := memberSource_cases definition
  · rcases hheld with hprops | hopen
    · exact (h inner hinner).properties _ hprops
    · exact (h inner hinner).opened _ hopen
  · rw [hsource]
    exact List.nodup_singleton _
  · rw [hsource]
    exact List.nodup_nil

/-- The members of a record stand for the properties that it is made of. -/
theorem standFor_recordOf {name : String} {definition : Node} (h : definition.Keyed) :
    StandFor ((recordOf name definition).members.map RecordMember.name)
      ((memberSource definition).map Prod.fst) := by
  have hstand := standFor_normalizeKey (nodup_memberSource h)
  rw [List.map_map] at hstand
  rw [recordOf, List.map_map]
  exact hstand

/-! ### Enums -/

theorem inside_of_mem_requestsOf {owner key : String} {node : Node} {asked : Request}
    (h : asked ∈ requestsOf owner key node) :
    asked.node.Inside node ∧ asked.node.isEnum = true := by
  refine requestsOf_induction (motive := fun _ node => asked.node.Inside node ∧ _) ?_ ?_ h
  · rintro key node part hpart henum rfl
    exact ⟨(Node.Inside.refl part.2).of_child (mem_children_of_mem_onward hpart), henum⟩
  · rintro key node part hpart ⟨hinside, henum⟩
    exact ⟨hinside.of_child (mem_children_of_mem_onward hpart), henum⟩

theorem inside_of_mem_asksFor {name : String} {definition : Node} {asked : Request}
    (h : asked ∈ asksFor name definition) :
    asked.node.Inside definition ∧ asked.node.isEnum = true := by
  rw [asksFor] at h
  split at h
  · next henum =>
    obtain rfl := List.mem_singleton.mp h
    exact ⟨.refl definition, henum⟩
  · obtain ⟨entry, hentry, h⟩ := List.mem_flatMap.mp h
    have hinside := inside_of_mem_memberSource hentry
    rw [memberRequests] at h
    split at h
    · next henum =>
      obtain rfl := List.mem_singleton.mp h
      exact ⟨hinside, henum⟩
    · obtain ⟨hinner, henum⟩ := inside_of_mem_requestsOf h
      exact ⟨hinner.trans hinside, henum⟩

/-- An enum of a run has the values of an enum in a definition, and two of its members have one name
exactly if they have the same value or one value is mistaken for the other. -/
theorem exists_of_mem_enumsOf {definitions : List (String × Node)} {enum : EnumDeclaration}
    (h : enum ∈ enumsOf (emitAll definitions).declarations) :
    ∃ definition ∈ definitions, ∃ node : Node, node.Inside definition.2 ∧
      node.enumValues? = some (enum.members.map EnumCase.value) ∧
      enum.members.Pairwise fun a b =>
        a.name = b.name ↔ a.value = b.value ∨ Mistaken a.value b.value := by
  rw [enumsOf_emitAll] at h
  obtain ⟨asked, hasked, rfl⟩ := List.mem_map.mp h
  obtain ⟨definition, hdefinition, hasked⟩ := List.mem_flatMap.mp (mem_of_mem_firsts hasked)
  obtain ⟨hinside, henum⟩ := inside_of_mem_asksFor hasked
  obtain ⟨values, hvalues⟩ := Option.isSome_iff_exists.mp henum
  refine ⟨definition, hdefinition, asked.node, hinside, ?_, ?_⟩
  · rw [Request.enum, hvalues, Option.getD_some, List.map_map]
    exact congrArg some (List.map_id values).symm
  · rw [Request.enum, List.pairwise_map]
    exact List.pairwise_of_forall fun a b => enumMemberName_eq_iff

/-! ### Runs -/

/-- **The members that have one name.** A selection that is accepted ends. Each of its records comes
from a selected definition; the names of its members stand for the distinct keys of the properties
that the definition is made of, and so do the names in every object that is spelled out in its
types, for the properties of a node in the definition. Two such names are the same exactly if their
keys agree but for dots, hyphens and underscores. Each enum has the values of an enum in a selected
definition. Two of its members have one name exactly if they have the same value, or if one of their
values is a text and the displays of the two are the same but for the underscore that one needs. -/
theorem run_repeats {document : Document} (hkeyed : document.Keyed) {names : List String}
    {selected : List (String × Node)} (h : document.select names = .ok selected) :
    ∃ context, run document names = .ok context ∧
      (∀ record ∈ recordsOf context.declarations, ∃ definition,
        (record.name, definition) ∈ selected ∧
        StandFor (record.members.map RecordMember.name)
          ((memberSource definition).map Prod.fst) ∧
        record.members.map RecordMember.type =
          (memberTypes record.name definition).map TypeExpr.render ∧
        ∀ type ∈ memberTypes record.name definition, ∀ object ∈ type.objects,
          ∃ inner : Node, inner.Inside definition ∧
            ∃ properties ∈ inner.properties, StandFor object (properties.map Prod.fst)) ∧
      ∀ enum ∈ enumsOf context.declarations, ∃ definition ∈ selected, ∃ node : Node,
        node.Inside definition.2 ∧
        node.enumValues? = some (enum.members.map EnumCase.value) ∧
        enum.members.Pairwise fun a b =>
          a.name = b.name ↔ a.value = b.value ∨ Mistaken a.value b.value := by
  refine ⟨emitAll selected, run_of_select h, fun record hrecord => ?_, fun enum henum => ?_⟩
  · rw [records_emitAll, List.mem_filterMap] at hrecord
    obtain ⟨⟨owner, definition⟩, hd, hrec⟩ := hrecord
    obtain ⟨-, rfl⟩ : definition.isEnum = false ∧ recordOf owner definition = record := by
      simpa [record?] using hrec
    have hin : (owner, definition) ∈ document.definitions := by
      obtain ⟨-, rfl⟩ := Document.select_eq_ok_iff.mp h
      exact List.mem_of_mem_filter hd
    have hdefinition := hkeyed.inside (owner, definition) hin
    exact ⟨definition, hd, standFor_recordOf hdefinition, types_recordOf owner definition,
      fun type ht object hobject => standFor_of_mem_memberTypes hdefinition ht hobject⟩
  · exact exists_of_mem_enumsOf henum

/-- A record of which two keys differ in a separator, and two values of an enum in their kind. -/
def tangledText : List Char :=
  ("\x7b\"definitions\": \x7b\"A\": \x7b\"properties\": \x7b" ++
    "\"a.b\": \x7b\"type\": \"string\"\x7d, \"a-b\": \x7b\"type\": \"integer\"\x7d, " ++
    "\"on\": \x7b\"enum\": [\"true\", true]\x7d\x7d\x7d\x7d\x7d").toList

def tangledEnum : Clauses where
  values := some [.text "true", .boolean true]

def tangledRecord : Clauses where
  properties := some
    [("a.b", { declaredType := some (.text "string") }),
     ("a-b", { declaredType := some (.text "integer") }),
     ("on", tangledEnum)]

/-- The document of the text. -/
def tangled : Document where
  definitions := Node.ofEntries [("A", tangledRecord)]

theorem ofText_tangled : Document.ofText "spec.json" tangledText = .ok tangled := by
  cbv

/-- The record has two members of one name, for its two keys that are alike, and so has the enum,
for its two values of which one is a text. -/
theorem run_repeats_tangled :
    tangled.Keyed ∧ tangled.select [] = .ok tangled.definitions ∧
      ∃ context, run tangled [] = .ok context ∧
        (∀ record ∈ recordsOf context.declarations,
          StandFor (record.members.map RecordMember.name) ["a.b", "a-b", "on"]) ∧
        ∀ enum ∈ enumsOf context.declarations, enum.members.Pairwise fun a b =>
          a.name = b.name ↔ a.value = b.value ∨ Mistaken a.value b.value := by
  have hkeyed := Document.keyed_ofText ofText_tangled
  refine ⟨hkeyed, select_nil tangled, ?_⟩
  obtain ⟨context, hrun, hrecords, henums⟩ := run_repeats hkeyed (select_nil tangled)
  refine ⟨context, hrun, fun record hrecord => ?_, fun enum henum => ?_⟩
  · obtain ⟨definition, hd, hstand, -, -⟩ := hrecords record hrecord
    obtain ⟨-, rfl⟩ := Prod.mk.inj (List.mem_singleton.mp hd)
    exact hstand
  · obtain ⟨definition, -, node, -, -, hmembers⟩ := henums enum henum
    exact hmembers

/-- Members of a record can have one name though their keys differ, and members of an enum though
their values do. -/
theorem not_every_name_apart :
    (¬ ∀ (document : Document) (names : List String) (context : Context),
      document.Keyed → run document names = .ok context →
        ∀ record ∈ recordsOf context.declarations,
          (record.members.map RecordMember.name).Nodup) ∧
    ¬ ∀ (document : Document) (names : List String) (context : Context),
      document.Keyed → run document names = .ok context →
        ∀ enum ∈ enumsOf context.declarations,
          enum.members.Pairwise fun a b => a.name = b.name → a.value = b.value := by
  have hkeyed := Document.keyed_ofText ofText_tangled
  have hrun := run_of_select (select_nil tangled)
  constructor
  · intro h
    have hrecord : recordOf "A" (Node.ofClauses tangledRecord) ∈
        recordsOf (emitAll tangled.definitions).declarations := by
      rw [records_emitAll]
      exact List.mem_singleton_self _
    exact absurd (h tangled [] _ hkeyed hrun _ hrecord) (by decide)
  · intro h
    have henum : Context.enumOf "Aon" (Node.ofClauses tangledEnum) ∈
        enumsOf (emitAll tangled.definitions).declarations := by
      have hasks : asksOf tangled.definitions = [⟨"Aon", Node.ofClauses tangledEnum⟩] := by
        cbv
      rw [enumsOf_emitAll, hasks]
      exact List.mem_singleton_self _
    exact absurd (h tangled [] _ hkeyed hrun _ henum) (by decide)

end Emission

end SchemaTypes
