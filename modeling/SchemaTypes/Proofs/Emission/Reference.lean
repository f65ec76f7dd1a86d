import SchemaTypes.Proofs.Emission.Run

/-!
# The names that types refer to

A type refers to declarations by name. Two clauses of a node put a name into its type. A reference
brings its own, and whether the document defines it is for the document to say. An enum is named
after its definition and its property, and resolving only names it; the enum itself is asked for
where the node is met, by the member, by the array or by the object that holds it. That every place
does so is what makes the name good.

## Main definitions

* `TypeScript.TypeExpr.names`: the names a type refers to, at any depth
* `Emission.memberTypes`: the types of the members of a record definition
* `Schema.Document.RefersToItself`: every reference of a record definition names a definition

## Main results

* `Emission.mem_names_typeOf`: where a name in the type of a node comes from
* `Emission.run_names`: no name in the output of a run is left without a declaration
-/

namespace SchemaTypes

namespace TypeScript

namespace TypeExpr

mutual

/-- The names a type refers to, at any depth. -/
def names : TypeExpr → List String
  | primitive _ => []
  | named name => [name]
  | array element => element.names
  | object members => namesOfMembers members

/-- The names that the types of members refer to. -/
def namesOfMembers : List (String × TypeExpr) → List String
  | [] => []
  | (_, type) :: rest => type.names ++ namesOfMembers rest

end

theorem mem_namesOfMembers {members : List (String × TypeExpr)} {name : String} :
    name ∈ namesOfMembers members ↔ ∃ member ∈ members, name ∈ member.2.names := by
  induction members with
  | nil => simp [namesOfMembers]
  | cons member rest ih => simp [namesOfMembers, ih]

end TypeExpr

end TypeScript

namespace Schema

/-- Every reference inside a record definition names a definition of the document. -/
def Document.RefersToItself (document : Document) : Prop :=
  ∀ definition ∈ document.definitions, definition.2.isEnum = false →
    ∀ inner : Node, inner.Inside definition.2 → ∀ name, inner.referenceName = some name →
      document.defines name = true

end Schema

namespace Emission

open Schema TypeScript

/-! ### The names in the type of a node -/

/-- A type refers to the enum that its node is, to a reference of it, or to what the nodes refer to
that resolving goes on with. -/
theorem mem_names_typeOf_iff {owner key name : String} {node : Node} :
    name ∈ (typeOf owner key node).names ↔
      (route node = .enumeration ∧ name = owner ++ key) ∨ route node = .reference name ∨
        ∃ part ∈ onward key node, name ∈ (typeOf owner part.1 part.2).names := by
  rw [typeOf_eq, onward]
  cases route node with
  | properties entries =>
    simpa [TypeExpr.names, TypeExpr.mem_namesOfMembers] using exists_comm
  | reference target => simp [TypeExpr.names, eq_comm]
  | _ => simp [TypeExpr.names]

/-- What a name in the type of a node stands for: the enum that the node is, an enum that the node
asks for, or a reference inside it. -/
theorem mem_names_typeOf {owner key name : String} {node : Node}
    (h : name ∈ (typeOf owner key node).names) :
    (node.isEnum = true ∧ name = owner ++ key) ∨
      (∃ request ∈ requestsOf owner key node, request.name = name) ∨
      ∃ inner : Node, inner.Inside node ∧ inner.referenceName = some name := by
  induction node using Node.induction_children generalizing key with
  | step node ih =>
    rcases mem_names_typeOf_iff.mp h with ⟨hr, rfl⟩ | hr | ⟨part, hpart, hname⟩
    · exact .inl ⟨isEnum_of_route hr, rfl⟩
    · exact .inr (.inr ⟨node, .refl node, referenceName_of_route hr⟩)
    · have hchild := mem_children_of_mem_onward hpart
      rcases ih part.2 hchild hname with ⟨henum, rfl⟩ | ⟨request, hmem, rfl⟩ | ⟨inner, hinner, href⟩
      · -- the node has asked for each enum that resolving goes on with
        exact .inr (.inl ⟨_, mem_requestsOf.mpr ⟨part, hpart, .inl ⟨henum, rfl⟩⟩, rfl⟩)
      · exact .inr (.inl ⟨request, mem_requestsOf.mpr ⟨part, hpart, .inr hmem⟩, rfl⟩)
      · exact .inr (.inr ⟨inner, hinner.of_child hchild, href⟩)

/-- A member asks for the enum that it is. -/
theorem mem_names_memberType {owner property name : String} {node : Node}
    (h : name ∈ (memberType owner property node).names) :
    (∃ request ∈ memberRequests owner property node, request.name = name) ∨
      ∃ inner : Node, inner.Inside node ∧ inner.referenceName = some name := by
  rw [memberType] at h
  rw [memberRequests]
  cases henum : node.isEnum with
  | true =>
    rw [if_pos henum] at h
    exact .inl ⟨_, List.mem_singleton_self _, (List.mem_singleton.mp h).symm⟩
  | false =>
    rw [if_neg (by simp [henum])] at h
    rcases mem_names_typeOf h with ⟨hnot, -⟩ | hrest
    · simp [henum] at hnot
    · exact hrest

/-! ### The names in a record -/

/-- The types of the members of a record definition. -/
def memberTypes (owner : String) (definition : Node) : List TypeExpr :=
  (memberSource definition).map fun entry => memberType owner entry.1 entry.2

theorem types_recordOf (name : String) (definition : Node) :
    (recordOf name definition).members.map RecordMember.type =
      (memberTypes name definition).map TypeExpr.render := by
  simp [recordOf, memberTypes, memberOf]

/-- A record is made of the entries that a node in its definition holds under keys, or of the items
of the definition, or of nothing. -/
theorem memberSource_cases (definition : Node) :
    (∃ inner : Node, inner.Inside definition ∧
        (inner.properties = some (memberSource definition) ∨
          inner.openEntries? = some (memberSource definition))) ∨
      (∃ item, definition.items = some item ∧ memberSource definition = [("items", item)]) ∨
      memberSource definition = [] := by
  rw [memberSource]
  cases hp : properties? definition with
  | none =>
    cases hi : definition.items with
    | none => exact .inr (.inr rfl)
    | some item => exact .inr (.inl ⟨item, rfl, rfl⟩)
  | some entries =>
    refine .inl ?_
    rw [properties?] at hp
    split at hp
    · next parts hkind =>
      obtain ⟨part, hpart, hprops⟩ := Option.bind_eq_some_iff.mp hp
      have hparts : definition.parts? = some parts := by simp [Node.parts?, hkind]
      have hchild := Node.mem_children_of_parts hparts (List.mem_of_getElem? hpart)
      exact ⟨part, (Node.Inside.refl part).of_child hchild, .inl hprops⟩
    · next opened hkind =>
      have hopen : definition.openEntries? = some entries := by
        simpa [Node.openEntries?, hkind] using hp
      exact ⟨definition, .refl definition, .inr hopen⟩
    · next structured hkind =>
      have hprops : definition.properties = some entries := by
        simpa [Node.properties, hkind] using hp
      exact ⟨definition, .refl definition, .inl hprops⟩
    · cases hp

/-- What a record is made of lies in its definition. -/
theorem inside_of_mem_memberSource {definition : Node} {entry : String × Node}
    (h : entry ∈ memberSource definition) : entry.2.Inside definition := by
  obtain ⟨inner, hinner, hheld⟩ | ⟨item, hitem, hsource⟩ | hsource := memberSource_cases definition
  · have hchild : entry.2 ∈ inner.children := by
      rcases hheld with hprops | hopen
      · exact Node.mem_children_of_properties hprops h
      · exact Node.mem_children_of_openEntries hopen h
    exact ((Node.Inside.refl entry.2).of_child hchild).trans hinner
  · rw [hsource, List.mem_singleton] at h
    subst h
    exact (Node.Inside.refl item).of_child (Node.mem_children_of_items hitem)
  · rw [hsource] at h
    cases h

/-- What a name in a record stands for: an enum that the definition asks for, or a reference inside
the definition. -/
theorem mem_names_memberTypes {owner name : String} {definition : Node} {type : TypeExpr}
    (ht : type ∈ memberTypes owner definition) (h : name ∈ type.names) :
    (∃ request ∈ hoistsOf owner definition, request.name = name) ∨
      ∃ inner : Node, inner.Inside definition ∧ inner.referenceName = some name := by
  obtain ⟨entry, hentry, rfl⟩ := List.mem_map.mp ht
  rcases mem_names_memberType h with ⟨request, hmem, rfl⟩ | ⟨inner, hinner, href⟩
  · exact .inl ⟨request, List.mem_flatMap.mpr ⟨entry, hentry, hmem⟩, rfl⟩
  · exact .inr ⟨inner, hinner.trans (inside_of_mem_memberSource hentry), href⟩

/-! ### The names in a run -/

/-- Every enum that a record of a run asks for is there at its end. -/
theorem hasEnum_of_mem_hoistsOf {definitions : List (String × Node)} {name : String}
    {definition : Node} (hd : (name, definition) ∈ definitions)
    (henum : definition.isEnum = false) {request : Request}
    (h : request ∈ hoistsOf name definition) :
    (emitAll definitions).hasEnum request.name = true := by
  have hasks : asksFor name definition = hoistsOf name definition := by simp [asksFor, henum]
  have hmem : request.name ∈ (emitAll definitions).enumNames :=
    mem_enumNames_emitAll.mpr ⟨(name, definition), hd, request, hasks ▸ h, rfl⟩
  simpa [Context.hasEnum] using hmem

/-- A name that an enum has taken is the name of a declaration. -/
theorem Context.Consistent.exists_declaration {context : Context} (h : context.Consistent)
    {name : String} (hname : context.hasEnum name = true) :
    ∃ d ∈ context.declarations, d.name = name := by
  have hmem : name ∈ context.enumNames := by simpa [Context.hasEnum] using hname
  rw [h.names] at hmem
  obtain ⟨enum, henum, rfl⟩ := List.mem_map.mp hmem
  exact ⟨.enumeration enum, mem_enumsOf.mp henum, rfl⟩

/-- Every definition of a run leaves a declaration with its name. -/
theorem exists_declaration_of_mem {definitions : List (String × Node)} {name : String}
    {definition : Node} (hd : (name, definition) ∈ definitions) :
    ∃ d ∈ (emitAll definitions).declarations, d.name = name := by
  cases henum : definition.isEnum with
  | true =>
    have hasks : asksFor name definition = [⟨name, definition⟩] := by simp [asksFor, henum]
    have hmem : name ∈ (emitAll definitions).enumNames :=
      mem_enumNames_emitAll.mpr
        ⟨(name, definition), hd, ⟨name, definition⟩, hasks ▸ List.mem_singleton_self _, rfl⟩
    refine (consistent_emitAll definitions).exists_declaration ?_
    simpa [Context.hasEnum] using hmem
  | false =>
    have hrecord := mem_recordsOf.mp (recordOf_mem_recordsOf hd henum)
    exact ⟨.record (recordOf name definition), hrecord, rfl⟩

theorem run_of_select {document : Document} {names : List String}
    {selected : List (String × Node)} (h : document.select names = .ok selected) :
    run document names = .ok (emitAll selected) := by
  rw [run, h]
  rfl

theorem select_nil (document : Document) : document.select [] = .ok document.definitions := by
  simp [Document.select]

/-- **No name is left without a declaration.** A run over a selection that is accepted ends. Each of
its records comes from a selected definition, and its types are those of the members of that
definition; a name in one of them is taken by an enum of the run or stands in a reference inside the
definition. If the whole document is run and its references stay within it, each such name is that
of a declaration of the run. -/
theorem run_names {document : Document} {names : List String} {selected : List (String × Node)}
    (h : document.select names = .ok selected) :
    ∃ context, run document names = .ok context ∧
      ∀ record, .record record ∈ context.declarations →
        ∃ definition, (record.name, definition) ∈ selected ∧ definition.isEnum = false ∧
          record.members.map RecordMember.type =
            (memberTypes record.name definition).map TypeExpr.render ∧
          ∀ type ∈ memberTypes record.name definition, ∀ name ∈ type.names,
            (context.hasEnum name = true ∨
              ∃ inner : Node, inner.Inside definition ∧ inner.referenceName = some name) ∧
            (names = [] → document.RefersToItself →
              ∃ d ∈ context.declarations, d.name = name) := by
  refine ⟨emitAll selected, run_of_select h, fun record hrecord => ?_⟩
  rw [← mem_recordsOf, records_emitAll, List.mem_filterMap] at hrecord
  obtain ⟨⟨owner, definition⟩, hd, hrec⟩ := hrecord
  obtain ⟨henum, rfl⟩ : definition.isEnum = false ∧ recordOf owner definition = record := by
    simpa [record?] using hrec
  refine ⟨definition, hd, henum, types_recordOf owner definition, fun type ht name hname => ?_⟩
  rcases mem_names_memberTypes ht hname with ⟨request, hmem, rfl⟩ | ⟨inner, hinner, href⟩
  · have hasEnum := hasEnum_of_mem_hoistsOf hd henum hmem
    exact ⟨.inl hasEnum, fun _ _ => (consistent_emitAll selected).exists_declaration hasEnum⟩
  · refine ⟨.inr ⟨inner, hinner, href⟩, fun hnames hself => ?_⟩
    subst hnames
    obtain rfl : document.definitions = selected := by
      simpa [select_nil] using h
    have hdefines := hself (owner, definition) hd henum inner hinner name href
    obtain ⟨⟨target, node⟩, hnode, htarget⟩ := List.any_eq_true.mp hdefines
    obtain rfl : target = name := by simpa using htarget
    exact exists_declaration_of_mem hnode

/-- A chain: a record with a mark and, through a reference, the rest of the chain. -/
def chain : Document where
  definitions :=
    [("Chain",
      { Node.primitive .object with
        kind := .structured
          [("mark", { Node.primitive .string with kind := .enumeration [.text "end"] }),
           ("rest", { Node.primitive .unknown with kind := .reference "#/definitions/Chain" })] })]

theorem chain_refersToItself : chain.RefersToItself := by
  intro definition hd _ inner hinner name hname
  obtain rfl := List.mem_singleton.mp hd
  rcases Relation.ReflTransGen.cases_tail hinner with rfl | ⟨child, hchild, hparent⟩
  · cases hname
  · have hcases : child.children = [] ∧ ∀ n, child.referenceName = some n → n = "Chain" := by
      obtain rfl | rfl : child = _ ∨ child = _ := by
        simpa [Node.children, Node.parts?, Node.openEntries?, Node.properties, Node.items,
          Node.primitive] using hparent
      · exact ⟨rfl, fun n hn => by cases hn⟩
      · exact ⟨rfl, fun n hn => (Option.some.inj hn).symm⟩
    rcases Relation.ReflTransGen.cases_tail hchild with rfl | ⟨lower, -, hlower⟩
    · rw [hcases.2 name hname]
      rfl
    · rw [hcases.1] at hlower
      exact absurd hlower List.not_mem_nil

/-- In the chain, the enum of the mark and the chain itself are all that types refer to. -/
theorem run_names_chain :
    chain.select [] = .ok chain.definitions ∧ chain.RefersToItself ∧
      ∃ context, run chain [] = .ok context ∧
        ∀ record, .record record ∈ context.declarations →
          ∃ definition, (record.name, definition) ∈ chain.definitions ∧
            ∀ type ∈ memberTypes record.name definition, ∀ name ∈ type.names,
              ∃ d ∈ context.declarations, d.name = name := by
  refine ⟨rfl, chain_refersToItself, ?_⟩
  obtain ⟨context, hrun, hrecords⟩ := run_names (select_nil chain)
  refine ⟨context, hrun, fun record hrecord => ?_⟩
  obtain ⟨definition, hd, -, -, hnames⟩ := hrecords record hrecord
  exact ⟨definition, hd, fun type ht name hname =>
    (hnames type ht name hname).2 rfl chain_refersToItself⟩

end Emission

end SchemaTypes
