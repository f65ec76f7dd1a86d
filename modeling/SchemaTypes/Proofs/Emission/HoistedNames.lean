import SchemaTypes.Proofs.Emission.Reference
import SchemaTypes.Proofs.TypeScript.Naming

/-!
# The names of hoisted enums

An enum that is hoisted out of a definition is named after the definition and the key of a property,
whatever the key holds. As the name of a member a key that is no identifier is written as a literal,
but the name of a declaration has no such way out. So the name is an identifier exactly if every
character of the key can stand in one, dots and hyphens aside, which are rewritten.

## Main definitions

* `TypeScript.isWritableKey`: a key of which only characters of identifiers are left
* `Schema.Node.HasKey`: the keys of the properties in a node, at any depth

## Main results

* `TypeScript.isIdentifier_append_normalizeKey`: a key behind an identifier
* `Emission.exists_key_of_mem_hoistsOf`: the names that a definition asks for
* `Emission.emitDefinition_hoisted`: exactly which hoisted enums are named by identifiers
* `Emission.not_every_hoisted_isIdentifier`: one that is not
-/

namespace SchemaTypes

/-! ### A key behind an identifier -/

namespace TypeScript

/-- Whether a character of a key can stand in an identifier, as it is or rewritten. -/
def isWritableChar (c : Char) : Bool :=
  c = '.' || c = '-' || isIdentifierPart c

/-- Whether all characters of a key can stand in an identifier. -/
def isWritableKey (key : String) : Bool :=
  key.toList.all isWritableChar

theorem isIdentifierPart_normalizeChar (c : Char) :
    isIdentifierPart (normalizeChar c) = isWritableChar c := by
  have hunderscore : isIdentifierPart '_' = true := by decide
  rw [isWritableChar, normalizeChar]
  split <;> simp_all

/-- An identifier goes on as long as its parts do. -/
theorem isIdentifier_append {name : String} (h : isIdentifier name = true) (rest : String) :
    isIdentifier (name ++ rest) = rest.toList.all isIdentifierPart := by
  obtain ⟨c, cs, hname, hstart, hcs⟩ := exists_cons_of_isIdentifier h
  rw [isIdentifier, String.toList_append, hname, List.cons_append, isIdentifierText, hstart,
    Bool.true_and, List.all_append, List.all_eq_true.mpr hcs, Bool.true_and]

/-- A key can be added to an identifier exactly if it is writable. -/
theorem isIdentifier_append_normalizeKey {name : String} (h : isIdentifier name = true)
    (key : String) : isIdentifier (name ++ normalizeKey key) = isWritableKey key := by
  rw [isIdentifier_append h, normalizeKey, String.toList_ofList, List.all_map, isWritableKey]
  exact congrArg _ (funext isIdentifierPart_normalizeChar)

end TypeScript

/-! ### Keys in a node -/

namespace Schema

namespace Node

/-- A property in a node, at any depth, has the key. -/
def HasKey (node : Node) (key : String) : Prop :=
  ∃ inner : Node, inner.Inside node ∧ ∃ entries,
    (inner.properties = some entries ∨ inner.openEntries? = some entries) ∧
      key ∈ entries.map Prod.fst

theorem HasKey.of_inside {inner outer : Node} {key : String} (h : inner.HasKey key)
    (hinside : inner.Inside outer) : outer.HasKey key := by
  obtain ⟨lowest, hlowest, hheld⟩ := h
  exact ⟨lowest, hlowest.trans hinside, hheld⟩

end Node

end Schema

namespace Emission

open Schema TypeScript

/-! ### The keys that enums are named after -/

/-- Resolving goes on under the key it has, or under that of a property. -/
theorem name_of_mem_onward (owner : String) {key : String} {node : Node} {part : String × Node}
    (h : part ∈ onward key node) :
    owner ++ part.1 = owner ++ key ∨
      ∃ property, node.HasKey property ∧ owner ++ part.1 = owner ++ normalizeKey property := by
  rw [onward] at h
  split at h
  · obtain rfl := List.mem_singleton.mp h
    exact .inl rfl
  · next entries hr =>
    obtain ⟨entry, hentry, rfl⟩ := List.mem_map.mp h
    have hkey : node.HasKey entry.1 :=
      ⟨node, .refl node, entries, .inl (properties_of_route hr), List.mem_map_of_mem hentry⟩
    exact .inr ⟨entry.1, hkey, rfl⟩
  · cases h

/-- A node asks for enums that are named after its own key or after that of a property in it. -/
theorem name_of_mem_requestsOf {owner key : String} {node : Node} {asked : Request}
    (h : asked ∈ requestsOf owner key node) :
    asked.name = owner ++ key ∨
      ∃ property, node.HasKey property ∧ asked.name = owner ++ normalizeKey property := by
  refine requestsOf_induction (motive := fun key node => asked.name = owner ++ key ∨
    ∃ property, node.HasKey property ∧ asked.name = owner ++ normalizeKey property) ?_ ?_ h
  · rintro key node part hpart - rfl
    exact name_of_mem_onward owner hpart
  · rintro key node part hpart (hname | ⟨property, hkey, hname⟩)
    · rw [hname]
      exact name_of_mem_onward owner hpart
    · have hinside := (Node.Inside.refl part.2).of_child (mem_children_of_mem_onward hpart)
      exact .inr ⟨property, hkey.of_inside hinside, hname⟩

/-- The member of an array definition is called `items`. Any other member has a key of a property in
the definition. -/
theorem key_of_mem_memberSource {definition : Node} {entry : String × Node}
    (h : entry ∈ memberSource definition) : entry.1 = "items" ∨ definition.HasKey entry.1 := by
  obtain ⟨inner, hinner, hheld⟩ | ⟨item, -, hsource⟩ | hsource := memberSource_cases definition
  · exact .inr ⟨inner, hinner, _, hheld, List.mem_map_of_mem h⟩
  · rw [hsource] at h
    obtain rfl := List.mem_singleton.mp h
    exact .inl rfl
  · rw [hsource] at h
    cases h

/-- **The names that a definition asks for** are made of its own and the key of a property in it. -/
theorem exists_key_of_mem_hoistsOf {name : String} {definition : Node} {asked : Request}
    (h : asked ∈ hoistsOf name definition) :
    ∃ key, (key = "items" ∨ definition.HasKey key) ∧ asked.name = name ++ normalizeKey key := by
  obtain ⟨entry, hentry, hasked⟩ := List.mem_flatMap.mp h
  have hkey := key_of_mem_memberSource hentry
  rw [memberRequests] at hasked
  split at hasked
  · obtain rfl := List.mem_singleton.mp hasked
    exact ⟨entry.1, hkey, rfl⟩
  · rcases name_of_mem_requestsOf hasked with hname | ⟨property, hproperty, hname⟩
    · exact ⟨entry.1, hkey, hname⟩
    · exact ⟨property, .inr (hproperty.of_inside (inside_of_mem_memberSource hentry)), hname⟩

/-! ### Hoisted enums -/

/-- **Exactly which hoisted enums are named by identifiers.** Behind the record of a definition that
is named by an identifier stand the enums that are hoisted out of it. Each is named after the
definition and a key, that of a property in the definition or `items`, and its name is an identifier
exactly if the key is writable. So all are named by identifiers if all keys in the definition are
writable. -/
theorem emitDefinition_hoisted (context : Context) {name : String}
    (hname : isIdentifier name = true) {definition : Node} (hrecord : definition.isEnum = false) :
    ∃ hoisted : List EnumDeclaration,
      (emitDefinition context name definition).declarations =
        context.declarations ++ .record (recordOf name definition) :: hoisted.map .enumeration ∧
      (∀ enum ∈ hoisted, ∃ key, (key = "items" ∨ definition.HasKey key) ∧
        enum.name = name ++ normalizeKey key ∧ isIdentifier enum.name = isWritableKey key) ∧
      ((∀ key, definition.HasKey key → isWritableKey key = true) →
        ∀ enum ∈ hoisted, isIdentifier enum.name = true) := by
  have hkeys : ∀ asked ∈ kept context.enumNames (hoistsOf name definition),
      ∃ key, (key = "items" ∨ definition.HasKey key) ∧
        asked.name = name ++ normalizeKey key ∧ isIdentifier asked.name = isWritableKey key := by
    intro asked hasked
    obtain ⟨key, hkey, heq⟩ := exists_key_of_mem_hoistsOf (mem_of_mem_kept hasked)
    exact ⟨key, hkey, heq, by rw [heq, isIdentifier_append_normalizeKey hname]⟩
  refine ⟨(kept context.enumNames (hoistsOf name definition)).map Request.enum, ?_, ?_, ?_⟩
  · rw [emitDefinition_of_record context name hrecord, Context.emitEach_eq, Context.pushRecord,
      List.append_assoc, List.singleton_append, List.map_map]
    rfl
  · exact List.forall_mem_map.mpr hkeys
  · intro hwritable
    refine List.forall_mem_map.mpr fun asked hasked => ?_
    obtain ⟨key, rfl | hkey, -, heq⟩ := hkeys asked hasked
    · exact heq.trans (by decide)
    · exact heq.trans (hwritable key hkey)

/-- A record with one property, an enum, under a key. -/
def heldUnder (key : String) : Node :=
  { Node.primitive .object with
    kind := .structured
      [(key, { Node.primitive .string with kind := .enumeration [.text "open"] })] }

theorem eq_of_hasKey_heldUnder {key other : String} (h : (heldUnder key).HasKey other) :
    other = key := by
  obtain ⟨inner, hinner, entries, hheld, hkey⟩ := h
  rcases Relation.ReflTransGen.cases_tail hinner with rfl | ⟨child, hchild, hparent⟩
  · obtain rfl : [(key, _)] = entries := by
      simpa [heldUnder, Node.primitive, Node.properties, Node.openEntries?] using hheld
    simpa using hkey
  · obtain rfl : child = { Node.primitive .string with kind := .enumeration [.text "open"] } := by
      simpa [heldUnder, Node.children, Node.parts?, Node.openEntries?, Node.properties, Node.items,
        Node.primitive] using hparent
    rcases Relation.ReflTransGen.cases_tail hchild with rfl | ⟨lower, -, hlower⟩
    · simp [Node.primitive, Node.properties, Node.openEntries?] at hheld
    · cases hlower

/-- A hyphen in a key does no harm. -/
theorem emitDefinition_hoisted_state :
    isIdentifier "Order" = true ∧ (heldUnder "x-state").isEnum = false ∧
      (emitDefinition .empty "Order" (heldUnder "x-state")).declarations.map Declaration.name =
        ["Order", "Orderx_state"] ∧
      ∃ hoisted : List EnumDeclaration,
        (emitDefinition .empty "Order" (heldUnder "x-state")).declarations =
          .record (recordOf "Order" (heldUnder "x-state")) :: hoisted.map .enumeration ∧
        ∀ enum ∈ hoisted, isIdentifier enum.name = true := by
  have hname : isIdentifier "Order" = true := by decide
  have hrecord : (heldUnder "x-state").isEnum = false := rfl
  obtain ⟨hoisted, hdeclarations, -, hall⟩ := emitDefinition_hoisted .empty hname hrecord
  refine ⟨hname, hrecord, by decide +kernel, hoisted, hdeclarations, hall fun key hkey => ?_⟩
  rw [eq_of_hasKey_heldUnder hkey]
  decide

/-- An enum that is hoisted out of a definition need not be named by an identifier. -/
theorem not_every_hoisted_isIdentifier :
    ¬ ∀ (context : Context) (name : String) (definition : Node) (hoisted : List EnumDeclaration),
      isIdentifier name = true → definition.isEnum = false →
        (emitDefinition context name definition).declarations =
          context.declarations ++
            .record (recordOf name definition) :: hoisted.map .enumeration →
        ∀ enum ∈ hoisted, isIdentifier enum.name = true := by
  intro h
  have hdeclarations : (emitDefinition .empty "Order" (heldUnder "unit price")).declarations =
      .record (recordOf "Order" (heldUnder "unit price")) ::
        [⟨"Orderunit price", none, [⟨"open", .text "open"⟩]⟩].map .enumeration := by
    decide +kernel
  have hprice := h .empty "Order" (heldUnder "unit price") _ (by decide) rfl hdeclarations _
    (List.mem_singleton_self _)
  exact absurd hprice (by decide)

end Emission

end SchemaTypes
