import SchemaTypes.Proofs.Emission.Declared

/-!
# Enums that no type refers to

An enum in the items of an array, or in an object that is spelled out, is hoisted before the type of
its node is looked at. The type then follows the clauses in their own order, in which the items of
an array come before an enum. So an enum that is declared as an array with items is hoisted for
nothing: the type is that of the items. The member of a record is the exception. An enum that is a
member itself is named at once, whatever its declared type is. Every other enum that is hoisted is
named where it was met, since the type of a node holds the types of the nodes that it goes on with.

## Main definitions

* `Schema.Node.IsArray`: the type of a node follows its items
* `Emission.PassedOver`: an enum that a definition asks for and does not name
* `Emission.Context.Uses`: a record of a run refers to a name

## Main results

* `Emission.mem_names_of_mem_requestsOf`: an enum is named where it was met
* `Emission.used_or_passedOver`: what becomes of an enum that a definition asks for
* `Emission.run_uses`: every enum of a run is a definition, used, or passed over wherever it was met
* `Emission.not_every_enum_used`: one that no type refers to
-/

namespace SchemaTypes

namespace Schema

/-- The type of a node follows its items: the declared type is array, and there are items. -/
def Node.IsArray (node : Node) : Prop :=
  node.type = .array ∧ node.items.isSome = true

end Schema

namespace Emission

open Schema TypeScript

/-! ### Naming an enum -/

/-- The type of an enum follows it, unless it follows the items of an array. -/
theorem route_of_isEnum {node : Node} (henum : node.isEnum = true) (harray : ¬ node.IsArray) :
    route node = .enumeration := by
  rw [route, Route.first.eq_def]
  split
  · next item htype hitems => exact absurd ⟨htype, by rw [hitems]; rfl⟩ harray
  · rw [if_pos henum]

/-- **An enum is named where it was met**, unless its type follows its items. -/
theorem mem_names_of_mem_requestsOf {owner key : String} {node : Node} {asked : Request}
    (h : asked ∈ requestsOf owner key node) (harray : ¬ asked.node.IsArray) :
    asked.name ∈ (typeOf owner key node).names := by
  refine requestsOf_induction (motive := fun key node => asked.name ∈ (typeOf owner key node).names)
    ?_ ?_ h
  · rintro key node part hpart henum rfl
    have hnamed : owner ++ part.1 ∈ (typeOf owner part.1 part.2).names :=
      mem_names_typeOf_iff.mpr (.inl ⟨route_of_isEnum henum harray, rfl⟩)
    exact mem_names_typeOf_iff.mpr (.inr (.inr ⟨part, hpart, hnamed⟩))
  · intro key node part hpart hnamed
    exact mem_names_typeOf_iff.mpr (.inr (.inr ⟨part, hpart, hnamed⟩))

/-- An enum that a definition asks for below one of its members, and whose type follows its items
instead. -/
def PassedOver (owner : String) (definition : Node) (asked : Request) : Prop :=
  asked.node.IsArray ∧ ∃ entry ∈ memberSource definition,
    entry.2.isEnum = false ∧ asked ∈ requestsOf owner (normalizeKey entry.1) entry.2

/-- An enum that a definition asks for is named in the type of a member, or passed over. -/
theorem used_or_passedOver {owner : String} {definition : Node} {asked : Request}
    (h : asked ∈ hoistsOf owner definition) :
    (∃ type ∈ memberTypes owner definition, asked.name ∈ type.names) ∨
      PassedOver owner definition asked := by
  obtain ⟨entry, hentry, hasked⟩ := List.mem_flatMap.mp h
  have htype : memberType owner entry.1 entry.2 ∈ memberTypes owner definition :=
    List.mem_map_of_mem hentry
  rw [memberRequests] at hasked
  cases henum : entry.2.isEnum with
  | true =>
    rw [if_pos henum] at hasked
    obtain rfl := List.mem_singleton.mp hasked
    refine .inl ⟨_, htype, ?_⟩
    rw [memberType, if_pos henum]
    exact List.mem_singleton_self _
  | false =>
    rw [if_neg (by simp [henum])] at hasked
    by_cases harray : asked.node.IsArray
    · exact .inr ⟨harray, entry, hentry, henum, hasked⟩
    · refine .inl ⟨_, htype, ?_⟩
      rw [memberType, if_neg (by simp [henum])]
      exact mem_names_of_mem_requestsOf hasked harray

/-! ### Runs -/

/-- A record of a context comes from one of the definitions, and the type of one of its members
refers to the name. -/
def Context.Uses (context : Context) (definitions : List (String × Node)) (name : String) : Prop :=
  ∃ record ∈ recordsOf context.declarations, ∃ definition,
    (record.name, definition) ∈ definitions ∧ definition.isEnum = false ∧
      record.members.map RecordMember.type =
        (memberTypes record.name definition).map TypeExpr.render ∧
      ∃ type ∈ memberTypes record.name definition, name ∈ type.names

theorem uses_of_mem_names {definitions : List (String × Node)} {owner name : String}
    {definition : Node} (hd : (owner, definition) ∈ definitions) (henum : definition.isEnum = false)
    (h : ∃ type ∈ memberTypes owner definition, name ∈ type.names) :
    (emitAll definitions).Uses definitions name :=
  ⟨recordOf owner definition, recordOf_mem_recordsOf hd henum, definition, hd, henum,
    types_recordOf owner definition, h⟩

/-- Wherever a record definition asks for an enum of the name, the enum is passed over. -/
def OnlyPassedOver (definitions : List (String × Node)) (name : String) : Prop :=
  ∀ definition ∈ definitions, definition.2.isEnum = false →
    ∀ asked ∈ hoistsOf definition.1 definition.2, asked.name = name →
      PassedOver definition.1 definition.2 asked

/-- **What the enums of a run are for.** A selection that is accepted ends. Each of its enums has
the name of a selected enum definition, or a name that the type of a member of one of the records
refers to, or it is hoisted out of a selected definition, and every enum of its name that a selected
definition asks for is met below a member and declared as an array with items, so that its type
follows the items. -/
theorem run_uses {document : Document} {names : List String} {selected : List (String × Node)}
    (h : document.select names = .ok selected) :
    ∃ context, run document names = .ok context ∧
      ∀ enum ∈ enumsOf context.declarations,
        (∃ definition, (enum.name, definition) ∈ selected ∧ definition.isEnum = true) ∨
          context.Uses selected enum.name ∨
          (∃ asked ∈ hoistedBy selected, asked.enum = enum) ∧
            OnlyPassedOver selected enum.name := by
  refine ⟨emitAll selected, run_of_select h, fun enum henum => ?_⟩
  rw [enumsOf_emitAll] at henum
  obtain ⟨asked, hasked, rfl⟩ := List.mem_map.mp henum
  obtain ⟨⟨owner, definition⟩, hd, hasked⟩ := List.mem_flatMap.mp (mem_of_mem_firsts hasked)
  rw [asksFor] at hasked
  split at hasked
  · next hdefinition =>
    obtain rfl := List.mem_singleton.mp hasked
    exact .inl ⟨definition, hd, hdefinition⟩
  · next hdefinition =>
    refine .inr (or_iff_not_imp_left.mpr fun hunused => ⟨⟨asked, ?_, rfl⟩, ?_⟩)
    · exact List.mem_flatMap.mpr ⟨(owner, definition), hd, by rwa [if_neg hdefinition]⟩
    · intro other hother hrecord request hrequest hname
      refine (used_or_passedOver hrequest).resolve_left fun hnamed => hunused ?_
      rw [hname] at hnamed
      exact uses_of_mem_names hother hrecord hnamed

/-- A record with three enums: a member, the items of an array, and the items of another array,
which are an array with items themselves. -/
def boardRecord : Node :=
  { Node.primitive .object with
    kind := .structured
      [("mark",
        { Node.primitive .array with
          kind := .enumeration [.text "x"]
          shadowed := { items := some (Node.primitive .string) } }),
       ("row",
        { Node.primitive .array with
          kind := .array { Node.primitive .string with kind := .enumeration [.text "x"] } }),
       ("rows",
        { Node.primitive .array with
          kind := .array
            { Node.primitive .array with
              kind := .enumeration [.text "x"]
              shadowed := { items := some (Node.primitive .string) } } })] }

/-- The document with the record. -/
def board : Document where
  definitions := [("Board", boardRecord)]

theorem enumsOf_board :
    (enumsOf (emitAll board.definitions).declarations).map EnumDeclaration.name =
      ["Boardmark", "Boardrow", "Boardrows"] := by
  decide +kernel

theorem names_memberTypes_board :
    (memberTypes "Board" boardRecord).flatMap TypeExpr.names = ["Boardmark", "Boardrow"] := by
  decide +kernel

/-- On the board, the types refer to the first two enums. The third is passed over. -/
theorem run_uses_board :
    board.select [] = .ok board.definitions ∧
      ∃ context, run board [] = .ok context ∧
        (enumsOf context.declarations).map EnumDeclaration.name =
          ["Boardmark", "Boardrow", "Boardrows"] ∧
        ∀ enum ∈ enumsOf context.declarations,
          context.Uses board.definitions enum.name ∨
            OnlyPassedOver board.definitions enum.name := by
  have hall := select_nil board
  obtain ⟨context, hrun, henums⟩ := run_uses hall
  obtain rfl : emitAll board.definitions = context := by
    rw [run_of_select hall] at hrun
    exact Except.ok.inj hrun
  refine ⟨hall, _, hrun, enumsOf_board, fun enum henum => ?_⟩
  rcases henums enum henum with ⟨definition, hd, hdefinition⟩ | huses | ⟨-, hpassed⟩
  · -- the only definition is no enum
    obtain ⟨-, rfl⟩ := Prod.mk.inj (List.mem_singleton.mp hd)
    cases hdefinition
  · exact .inl huses
  · exact .inr hpassed

/-- An enum can be declared that is no definition and that no type refers to. -/
theorem not_every_enum_used :
    ¬ ∀ (document : Document) (names : List String) (selected : List (String × Node))
        (context : Context),
      document.select names = .ok selected → run document names = .ok context →
        ∀ enum ∈ enumsOf context.declarations,
          (∃ definition, (enum.name, definition) ∈ selected ∧ definition.isEnum = true) ∨
            context.Uses selected enum.name := by
  intro h
  have hall := select_nil board
  have hrows : "Boardrows" ∈
      (enumsOf (emitAll board.definitions).declarations).map EnumDeclaration.name := by
    rw [enumsOf_board]
    decide
  obtain ⟨enum, henum, hname⟩ := List.mem_map.mp hrows
  rcases h board [] _ _ hall (run_of_select hall) enum henum with
    ⟨definition, hd, hdefinition⟩ | ⟨record, -, definition, hd, -, -, type, htype, hleaf⟩
  · obtain ⟨-, rfl⟩ := Prod.mk.inj (List.mem_singleton.mp hd)
    cases hdefinition
  · obtain ⟨hrecord, rfl⟩ := Prod.mk.inj (List.mem_singleton.mp hd)
    rw [hrecord] at htype
    have hused := List.mem_flatMap.mpr ⟨type, htype, hname ▸ hleaf⟩
    rw [names_memberTypes_board] at hused
    exact absurd hused (by decide)

end Emission

end SchemaTypes
