import SchemaTypes.Proofs.Schema.Shown
import SchemaTypes.Proofs.Schema.Reachable
import Mathlib

/-!
# Other additional properties

What `additionalProperties` says in a schema object can be replaced by any value that can be read.
The document can still be read, and all that changes is the open map of one node: whether there is
one, and its entries. The tag of the node may go to another of its clauses, which can be asked for
as before.

An entry that is no schema object is left out, and no other entry with it. The entry as a whole is
left out if one of its properties is none, but not if one of its own additional properties is none.
So what is wrong within `additionalProperties` never does harm beyond the innermost of them.

## Main definitions

* `Schema.Replaced`: another value of `additionalProperties` in a schema object
* `Schema.Node.Retagged`: two nodes that agree in all but their open maps
* `Schema.Node.Reopened`: two nodes of which one node within is retagged

## Main results

* `Schema.tolerated_replaced`: a reader can bear other additional properties
* `Schema.Node.reopened_ofClauses`: the nodes of two such schema objects
* `Schema.Document.ofText_replaced`: documents with other additional properties
-/

namespace SchemaTypes

namespace Schema

open Json

/-! ### Schema objects -/

/-- Another value of `additionalProperties` in a schema object. The new one can be read, where
`room` levels may be entered from the schema object on. -/
inductive Replaced (room : Nat) : Content → Content → Prop
  | entry (before after : List (Except Unit String × Content)) {part new : Content}
      (hvalue : ∃ value, new.value (room - 1) = .ok value) :
      Replaced room (.object (before ++ (.ok "additionalProperties", part) :: after))
        (.object (before ++ (.ok "additionalProperties", new) :: after))
  | item (before after : List Content) {part new : Content}
      (hplace : Clause.all[before.length]? = some .additionalProperties)
      (hvalue : ∃ value, new.value (room - 1) = .ok value) :
      Replaced room (.list (before ++ part :: after)) (.list (before ++ new :: after))

/-- Two schema objects that have all clauses in common but `additionalProperties`. -/
def Clauses.Reopened (clauses other : Clauses) : Prop :=
  ∃ additional, other = { clauses with additional := additional }

theorem follows_additionalProperties {room : Nat} {new : Content}
    (hvalue : ∃ value, new.value room = .ok value) (part : Content) (clauses : Clauses) :
    Follows Clauses.Reopened (clauses.fill .additionalProperties (.ofContent room part))
      (clauses.fill .additionalProperties (.ofContent room new)) := by
  intro read hread
  obtain ⟨found, -, rfl⟩ := map_eq_ok.mp hread
  obtain ⟨value, hvalue⟩ := hvalue
  have hnew : ∃ result,
      (Forms.ofContent room new).optional (Forms.ofContent room new).additional = .ok result := by
    rw [Forms.optional, additional_ofContent, hvalue]
    split
    · exact ⟨none, rfl⟩
    · exact ⟨some (Additional.ofValue value), rfl⟩
  obtain ⟨result, hresult⟩ := hnew
  exact ⟨{ clauses with additional := result }, map_eq_ok.mpr ⟨result, hresult, rfl⟩, result, rfl⟩

namespace Replaced

variable {room : Nat} {content other : Content}

/-- **A schema object with other additional properties** is read with its other clauses as
before. -/
theorem follows_schema (h : Replaced room content other) :
    Follows Clauses.Reopened (Forms.ofContent room content).schema
      (Forms.ofContent room other).schema := by
  cases room with
  | zero => exact fun clauses hread => nomatch hread
  | succ room =>
    cases h with
    | @entry before after part _ hvalue =>
      have hkey : Clause.ofKey? "additionalProperties" = some .additionalProperties := by decide
      exact (follows_fieldsOf hkey).record (Clauses.commutes_fill room)
        (follows_additionalProperties hvalue part) .empty
    | @item before after part _ hplace hvalue =>
      exact (follows_zip hplace Clause.ofKey?).record (Clauses.commutes_fill room)
        (follows_additionalProperties hvalue part) .empty

theorem follows_value_part {part new : Content} (hvalue : ∃ value, new.value room = .ok value) :
    Follows (fun value changed => value.Held room ∧ changed.Held room) (part.value room)
      (new.value room) := by
  intro value hread
  obtain ⟨changed, hchanged⟩ := hvalue
  exact ⟨changed, hchanged, Content.held_of_value room hread, Content.held_of_value room hchanged⟩

theorem sameOr_object {value changed : Value}
    (h : ObjectApart "additionalProperties"
      (fun value changed => value.Held room ∧ changed.Held room) value changed) :
    SameOr (Both Replaced (room + 1)) value changed := by
  refine h.sameOr fun x y hheld => .inr fun before after => ?_
  obtain ⟨hx, hy⟩ := hheld
  exact ⟨.entry _ _ ⟨y, Content.value_ofValue hy⟩, .entry _ _ ⟨x, Content.value_ofValue hx⟩⟩

theorem sameOr_list {index : Nat} (hplace : Clause.all[index]? = some .additionalProperties)
    {value changed : Value}
    (h : ListApart index (fun value changed => value.Held room ∧ changed.Held room) value changed) :
    SameOr (Both Replaced (room + 1)) value changed := by
  refine h.sameOr fun x y hheld => .inr fun before after hlength => ?_
  obtain ⟨hx, hy⟩ := hheld
  obtain rfl := hlength
  exact ⟨.item _ _ hplace ⟨y, Content.value_ofValue hy⟩,
    .item _ _ hplace ⟨x, Content.value_ofValue hx⟩⟩

/-- **The value of such a schema object** differs in the same way, in both directions. -/
theorem follows_value (h : Replaced room content other) :
    Follows (SameOr (Both Replaced room)) (content.value room) (other.value room) := by
  cases room with
  | zero => cases h <;> exact fun value hread => absurd rfl (enter_eq_ok.mp hread).1
  | succ room =>
    cases h with
    | entry before after hvalue =>
      exact (follows_value_object (follows_value_part hvalue)).mono fun _ _ => sameOr_object
    | item before after hplace hvalue =>
      exact (follows_value_list (follows_value_part hvalue)).mono fun _ _ => sameOr_list hplace

end Replaced

/-- **A reader can bear other additional properties.** -/
theorem tolerated_replaced : Tolerated Replaced Clauses.Reopened where
  isNull h := by cases h <;> rfl
  schema h := h.follows_schema
  value h := h.follows_value

/-! ### Nodes -/

namespace Node

/-- Two nodes agree in all but the open map that they may be, whichever of their clauses the tags
go to. -/
structure Retagged (node other : Node) : Prop where
  description : other.description = node.description
  sample : other.sample = node.sample
  type : other.type = node.type
  nullable : other.nullable = node.nullable
  properties : other.properties = node.properties
  items : other.items = node.items
  reference : other.reference = node.reference
  values : other.enumValues? = node.enumValues?
  parts : other.parts? = node.parts?

/-- Two nodes are the same but for one node within, at any depth, that is retagged. -/
inductive Reopened : Node → Node → Prop
  | same (node : Node) : Reopened node node
  | here {node other : Node} (h : node.Retagged other) : Reopened node other
  | part (node : Node) {inner other : Node} (before after : List Node) (h : Reopened inner other) :
      Reopened { node with kind := .composition (before ++ inner :: after) }
        { node with kind := .composition (before ++ other :: after) }
  | opened (node : Node) (name : String) {inner other : Node} (before after : List (String × Node))
      (h : Reopened inner other) :
      Reopened { node with kind := .openMap (before ++ (name, inner) :: after) }
        { node with kind := .openMap (before ++ (name, other) :: after) }
  | property (node : Node) (name : String) {inner other : Node}
      (before after : List (String × Node)) (h : Reopened inner other) :
      Reopened { node with kind := .structured (before ++ (name, inner) :: after) }
        { node with kind := .structured (before ++ (name, other) :: after) }
  | item (node : Node) {inner other : Node} (h : Reopened inner other) :
      Reopened { node with kind := .array inner } { node with kind := .array other }
  | shadowedProperty (node : Node) (name : String) {inner other : Node}
      (before after : List (String × Node)) (h : Reopened inner other) :
      Reopened
        { node with
          shadowed := { node.shadowed with properties := some (before ++ (name, inner) :: after) } }
        { node with
          shadowed := { node.shadowed with properties := some (before ++ (name, other) :: after) } }
  | shadowedItem (node : Node) {inner other : Node} (h : Reopened inner other) :
      Reopened { node with shadowed := { node.shadowed with items := some inner } }
        { node with shadowed := { node.shadowed with items := some other } }

theorem retagged_ofClauses {clauses other : Clauses} (h : clauses.Reopened other) :
    (ofClauses clauses).Retagged (ofClauses other) := by
  obtain ⟨additional, rfl⟩ := h
  constructor
  case properties => rw [properties_ofClauses, properties_ofClauses]
  case items => rw [items_ofClauses, items_ofClauses]
  case reference => rw [reference_ofClauses, reference_ofClauses]
  case values => rw [enumValues?_ofClauses, enumValues?_ofClauses]
  case parts => rw [parts?_ofClauses, parts?_ofClauses]
  all_goals
    rw [ofClauses_eq, ofClauses_eq]
    rfl

section Choose

variable (description : Option String) (sample : Option Value) (type : Primitive) (nullable : Bool)
  (values : Option (List EnumValue)) (parts : Option (List Node))
  (entries : Option (List (String × Node))) {inner other : Node} (h : Reopened inner other)
include h

/-- A property is kept in the tag or beside it. -/
theorem reopened_property (items : Option Node) (path : Option String) (name : String)
    (before after : List (String × Node)) :
    Reopened
      (choose description sample type nullable values parts entries
        ⟨some (before ++ (name, inner) :: after), items, path⟩)
      (choose description sample type nullable values parts entries
        ⟨some (before ++ (name, other) :: after), items, path⟩) := by
  have hkept := Reopened.shadowedProperty
    (choose description sample type nullable values parts entries ⟨none, items, path⟩)
    name before after h
  cases values with
  | some values => exact hkept
  | none =>
    cases parts with
    | some parts => exact hkept
    | none =>
      cases entries with
      | some entries => exact hkept
      | none =>
        exact .property
          (choose description sample type nullable none none none ⟨some [], items, path⟩)
          name before after h

theorem reopened_items (properties : Option (List (String × Node))) (path : Option String) :
    Reopened
      (choose description sample type nullable values parts entries ⟨properties, some inner, path⟩)
      (choose description sample type nullable values parts entries
        ⟨properties, some other, path⟩) := by
  have hkept := Reopened.shadowedItem
    (choose description sample type nullable values parts entries ⟨properties, none, path⟩) h
  cases values with
  | some values => exact hkept
  | none =>
    cases parts with
    | some parts => exact hkept
    | none =>
      cases entries with
      | some entries => exact hkept
      | none =>
        cases properties with
        | some properties => exact hkept
        | none =>
          exact .item
            (choose description sample type nullable none none none ⟨none, some inner, path⟩) h

/-- The parts of a composition are kept in the tag, unless the node is an enum. -/
theorem reopened_parts (kept : Shadowed Node) (before after : List Node) :
    Reopened
      (choose description sample type nullable values (some (before ++ inner :: after)) entries
        kept)
      (choose description sample type nullable values (some (before ++ other :: after)) entries
        kept) := by
  cases values with
  | some values => exact .same _
  | none =>
    exact .part (choose description sample type nullable none (some []) entries kept) before after h

/-- The entries of an open map are kept in the tag, unless it goes to a clause before them. -/
theorem reopened_entries (kept : Shadowed Node) (name : String)
    (before after : List (String × Node)) :
    Reopened
      (choose description sample type nullable values parts
        (some (before ++ (name, inner) :: after)) kept)
      (choose description sample type nullable values parts
        (some (before ++ (name, other) :: after)) kept) := by
  cases values with
  | some values => exact .same _
  | none =>
    cases parts with
    | some parts => exact .same _
    | none =>
      exact .opened (choose description sample type nullable none none (some []) kept) name before
        after h

end Choose

/-- **The nodes of two schema objects** of which one within has other additional properties. -/
theorem reopened_ofClauses {clauses other : Clauses}
    (h : Clauses.Within Clauses.Reopened clauses other) :
    Reopened (ofClauses clauses) (ofClauses other) := by
  have hentries : ∀ (before after : ClauseMap) (name : String) (inner : Clauses),
      ofEntries (before ++ (name, inner) :: after) =
        ofEntries before ++ (name, ofClauses inner) :: ofEntries after := by
    intro before after name inner
    rw [ofEntries_eq, ofEntries_eq, ofEntries_eq, List.map_append, List.map_cons]
  have hparts : ∀ (before after : List Clauses) (inner : Clauses),
      ofParts (before ++ inner :: after) = ofParts before ++ ofClauses inner :: ofParts after := by
    intro before after inner
    rw [ofParts_eq, ofParts_eq, ofParts_eq, List.map_append, List.map_cons]
  induction h with
  | same => exact .same _
  | here h => exact .here (retagged_ofClauses h)
  | property clauses name before after _ ih =>
    rw [ofClauses_eq, ofClauses_eq, Option.map_some, Option.map_some, hentries, hentries]
    exact reopened_property _ _ _ _ _ _ _ ih _ _ _ _ _
  | part clauses before after _ ih =>
    rw [ofClauses_eq, ofClauses_eq, Option.map_some, Option.map_some, hparts, hparts]
    exact reopened_parts _ _ _ _ _ _ ih _ _ _
  | item clauses _ ih =>
    rw [ofClauses_eq, ofClauses_eq]
    exact reopened_items _ _ _ _ _ _ _ ih _ _
  | opened clauses name before after _ ih =>
    rw [ofClauses_eq, ofClauses_eq, openedBy, openedBy, hentries, hentries]
    exact reopened_entries _ _ _ _ _ _ ih _ _ _ _

end Node

/-! ### Documents -/

namespace Document

/-- **A document whose schema object has other additional properties** can be read. At most one of
its nodes is another one, and that only in its open map, which the tag may go to or leave. Like
every node, it shows the entries that are schema objects if they are read by themselves, in order,
and is an open map if neither values of an enum nor parts of a composition go before them. -/
theorem ofText_replaced {file : String} {text : List Char} {document : Document}
    (h : ofText file text = .ok document) :
    ∃ content, Content.ofText? text = some content ∧ document.Shows content ∧
      ∀ changed other, Content.ofText? changed = some other →
        Changed Replaced .document maxDepth content other →
          ∃ result, ofText file changed = .ok result ∧
            OneApart (SameKey Node.Reopened) document.definitions result.definitions ∧
            result.Shows other := by
  obtain ⟨content, htext⟩ := exists_content h
  refine ⟨content, htext, shows_ofText htext h, fun changed other hchanged hreplaced => ?_⟩
  obtain ⟨result, hresult, hapart⟩ := hreplaced.exists_document tolerated_replaced
    Node.reopened_ofClauses htext hchanged h
  exact ⟨result, hresult, hapart, shows_ofText hchanged hresult⟩

/-- What a document says that defines a basket, from its additional properties. -/
def basketContent (additional : Content) : Content :=
  .object [(.ok "definitions", .object [(.ok "Basket", .object [
    (.ok "properties", .object [(.ok "lid", .object [])]),
    (.ok "additionalProperties", additional)])])]

/-- A basket that has a lid and no additional properties. -/
def basketText : List Char :=
  entryText "definitions" (entryText "Basket"
    ("\x7b\"properties\": \x7b\"lid\": \x7b\x7d\x7d, \"additionalProperties\": false\x7d").toList)

/-- The basket with additional properties, of which the first has one that is no schema object among
its own, and the second one among its properties. -/
def filledText : List Char :=
  entryText "definitions" (entryText "Basket"
    ("\x7b\"properties\": \x7b\"lid\": \x7b\x7d\x7d, \"additionalProperties\": " ++
    "\x7b\"egg\": \x7b\"additionalProperties\": \x7b\"yolk\": \x7b\x7d, \"crack\": true\x7d\x7d" ++
    ", \"leaf\": \x7b\"properties\": \x7b\"vein\": true\x7d\x7d\x7d\x7d").toList)

/-- The document of the basket without additional properties. -/
def basketDocument : Document where
  definitions := [("Basket",
    { Node.primitive .unknown with kind := .structured [("lid", .primitive .unknown)] })]

theorem ofText_replaced_basket :
    ofText "basket.json" basketText = .ok basketDocument ∧
      ∃ other result, Content.ofText? filledText = some other ∧
        ofText "basket.json" filledText = .ok result ∧
        OneApart (SameKey Node.Reopened) basketDocument.definitions result.definitions ∧
        result.Shows other := by
  have hread : ofText "basket.json" basketText = .ok basketDocument := by cbv
  have hbasket : Content.ofText? basketText =
      some (basketContent (.plain (.ok (.boolean false)))) := by cbv
  have hfilled : Content.ofText? filledText = some (basketContent (.ofValue (.object [
      ("egg", .object [("additionalProperties",
        .object [("yolk", .object []), ("crack", .boolean true)])]),
      ("leaf", .object [("properties", .object [("vein", .boolean true)])])]))) := by cbv
  obtain ⟨content, htext, -, hreplaced⟩ := ofText_replaced hread
  obtain rfl := Option.some.inj (htext.symm.trans hbasket)
  obtain ⟨result, hresult, hapart, hshows⟩ := hreplaced _ _ hfilled
    (.entry [] [] rfl (.entry [] [] rfl (.here (.entry [_] [] ⟨_, rfl⟩))))
  exact ⟨hread, _, result, hfilled, hresult, hapart, hshows⟩

/-- The crack is left out of the egg, and the leaf as a whole. -/
example : ofText "basket.json" filledText = .ok ⟨[("Basket",
    { Node.primitive .unknown with
      kind := .openMap [("egg",
        { Node.primitive .unknown with kind := .openMap [("yolk", .primitive .unknown)] })]
      shadowed := { properties := some [("lid", .primitive .unknown)] } })]⟩ := by cbv

end Document

end Schema

end SchemaTypes
