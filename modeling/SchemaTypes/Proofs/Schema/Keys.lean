import SchemaTypes.Proofs.Schema.Children
import SchemaTypes.Proofs.Schema.Reachable
import SchemaTypes.Proofs.Schema.Written

/-!
# No map of schemas repeats a key

A schema object has two clauses that are maps of schemas: its properties and those that it allows
beside them. Both are read from an object of a text in a way that keeps one entry for each key, the
one as a map of schemas and the other as a value first. So a document that was read holds no map
that repeats a key, at any depth.

## Main definitions

* `Schema.Clauses.Keyed`, `Schema.Node.Keyed`: no map in a schema object or in a node repeats a key
* `Schema.Forms.Keyed`: nothing that a source can be read as repeats a key
* `Schema.Document.Keyed`: nothing in a document repeats a key

## Main results

* `Schema.Forms.keyed_ofValue`, `Schema.Part.keyed_ofTree`: the sources of schema objects
* `Schema.Document.keyed_ofText`: a document that was read
-/

namespace SchemaTypes

open Json

/-! ### Collected entries -/

namespace Entries

variable {α : Type} {p : α → Prop}

theorem forall_put {key : String} {value : α} {entries : List (String × α)} (hvalue : p value)
    (h : ∀ entry ∈ entries, p entry.2) : ∀ entry ∈ put key value entries, p entry.2 := by
  induction entries with
  | nil => exact List.forall_mem_singleton.mpr hvalue
  | cons first rest ih =>
    obtain ⟨hfirst, hrest⟩ := List.forall_mem_cons.mp h
    rw [put]
    split
    · exact List.forall_mem_cons.mpr ⟨hvalue, hrest⟩
    · exact List.forall_mem_cons.mpr ⟨hfirst, ih hrest⟩

/-- What holds of all values holds of those that are collected. -/
theorem forall_collect {pairs : List (String × α)} (h : ∀ pair ∈ pairs, p pair.2) :
    ∀ entry ∈ collect pairs, p entry.2 := by
  have hfold : ∀ entries : List (String × α), (∀ entry ∈ entries, p entry.2) →
      ∀ entry ∈ pairs.foldl (fun entries pair => put pair.1 pair.2 entries) entries, p entry.2 := by
    induction pairs with
    | nil => exact fun entries hentries => hentries
    | cons pair rest ih =>
      obtain ⟨hpair, hrest⟩ := List.forall_mem_cons.mp h
      exact fun entries hentries => ih hrest _ (forall_put hpair hentries)
  exact hfold [] (List.forall_mem_nil _)

end Entries

namespace Json

namespace Value

theorem distinctEntries_iff {entries : List (String × Value)} :
    DistinctEntries entries ↔ ∀ entry ∈ entries, entry.2.DistinctKeys := by
  induction entries with
  | nil => simp [DistinctEntries]
  | cons entry rest ih =>
    rw [DistinctEntries, ih, List.forall_mem_cons]

mutual

/-- A value as a reader keeps it repeats no key. -/
theorem distinctKeys_collected : ∀ value : Value, value.collected.DistinctKeys
  | null | boolean _ | number _ | text _ => by
    rw [collected, DistinctKeys]
    trivial
  | array items => by
    rw [collected, DistinctKeys]
    exact distinctItems_collected items
  | object entries => by
    rw [collected, DistinctKeys, distinctEntries_iff]
    exact ⟨Entries.nodup_collect _,
      Entries.forall_collect (distinctEntries_iff.mp (distinctEntries_collected entries))⟩

theorem distinctItems_collected : ∀ items : List Value, DistinctItems (collectedItems items)
  | [] => trivial
  | item :: rest => ⟨distinctKeys_collected item, distinctItems_collected rest⟩

theorem distinctEntries_collected :
    ∀ entries : List (String × Value), DistinctEntries (collectedEntries entries)
  | [] => trivial
  | (_, value) :: rest => ⟨distinctKeys_collected value, distinctEntries_collected rest⟩

end

end Value

/-- A value that was read from a text repeats no key. -/
theorem Tree.distinctKeys_of_value {room : Nat} {tree : Tree} {value : Value}
    (h : tree.value room = .ok value) : value.DistinctKeys := by
  obtain ⟨written, -, rfl⟩ := exists_written_of_value h
  exact written.distinctKeys_collected

end Json

namespace Schema

/-! ### Schema objects -/

/-- No map of schemas in a schema object repeats a key, at any depth. -/
inductive Clauses.Keyed : Clauses → Prop
  | intro {clauses : Clauses}
      (distinct : ∀ entries ∈ clauses.properties, ClauseMap.Distinct entries)
      (properties : ∀ entries ∈ clauses.properties, ∀ entry ∈ entries, Keyed entry.2)
      (parts : ∀ parts ∈ clauses.allOf, ∀ part ∈ parts, Keyed part)
      (distinctOpened : ∀ entries ∈ clauses.opened, ClauseMap.Distinct entries)
      (opened : ∀ entries ∈ clauses.opened, ∀ entry ∈ entries, Keyed entry.2)
      (items : ∀ item ∈ clauses.items, Keyed item) : Keyed clauses

/-- A map of schemas repeats no key, and its schemas do not either. -/
structure ClauseMap.Keyed (schemas : ClauseMap) : Prop where
  distinct : schemas.Distinct
  inside : ∀ entry ∈ schemas, entry.2.Keyed

theorem ClauseMap.keyed_nil : ClauseMap.Keyed [] :=
  ⟨List.nodup_nil, List.forall_mem_nil _⟩

/-- Nothing that a source can be read as repeats a key. -/
structure Forms.Keyed {ε : Type} (forms : Forms ε) : Prop where
  additional : ∀ said, forms.additional = .ok said → ∀ entries ∈ said.entries?,
    ClauseMap.Keyed entries
  schema : ∀ clauses, forms.schema = .ok clauses → clauses.Keyed
  schemas : ∀ parts, forms.schemas = .ok parts → ∀ part ∈ parts, Clauses.Keyed part
  schemaMap : ∀ entries, forms.schemaMap = .ok entries → ClauseMap.Keyed entries

namespace Clauses

theorem Keyed.empty : Clauses.empty.Keyed :=
  .intro (fun _ h => (nomatch h)) (fun _ h => (nomatch h)) (fun _ h => (nomatch h))
    (fun _ h => (nomatch h)) (fun _ h => (nomatch h)) (fun _ h => (nomatch h))

/-- A clause that is filled in adds no repeated key. -/
theorem Keyed.fill {ε : Type} {clauses filled : Clauses} {source : Forms ε} {clause : Clause}
    (h : clauses.Keyed) (hsource : source.Keyed)
    (hfill : clauses.fill clause source = .ok filled) : filled.Keyed := by
  obtain ⟨hdistinct, hproperties, hparts, hdistinctOpened, hopened, hitems⟩ := h
  cases clause with
  | properties =>
    obtain ⟨read, hread, rfl⟩ := map_eq_ok.mp hfill
    have hkeyed : ∀ entries ∈ read, ClauseMap.Keyed entries := fun entries hentries =>
      hsource.schemaMap entries (Forms.mem_optional hread entries hentries)
    exact .intro (fun entries hentries => (hkeyed entries hentries).distinct)
      (fun entries hentries => (hkeyed entries hentries).inside) hparts hdistinctOpened hopened
      hitems
  | allOf =>
    obtain ⟨read, hread, rfl⟩ := map_eq_ok.mp hfill
    have hkeyed : ∀ parts ∈ read, ∀ part ∈ parts, Keyed part := fun parts hin =>
      hsource.schemas parts (Forms.mem_optional hread parts hin)
    exact .intro hdistinct hproperties hkeyed hdistinctOpened hopened hitems
  | additionalProperties =>
    obtain ⟨read, hread, rfl⟩ := map_eq_ok.mp hfill
    have hkeyed : ∀ entries ∈ read.bind Additional.entries?, ClauseMap.Keyed entries := by
      intro entries hentries
      obtain ⟨said, hsaid, hin⟩ := Option.bind_eq_some_iff.mp hentries
      exact hsource.additional said (Forms.mem_optional hread said hsaid) entries hin
    exact .intro hdistinct hproperties hparts (fun entries hin => (hkeyed entries hin).distinct)
      (fun entries hin => (hkeyed entries hin).inside) hitems
  | items =>
    obtain ⟨read, hread, rfl⟩ := map_eq_ok.mp hfill
    have hkeyed : ∀ item ∈ read, Keyed item := fun item hin =>
      hsource.schema item (Forms.mem_optional hread item hin)
    exact .intro hdistinct hproperties hparts hdistinctOpened hopened hkeyed
  | _ =>
    obtain ⟨read, -, rfl⟩ := map_eq_ok.mp hfill
    exact .intro hdistinct hproperties hparts hdistinctOpened hopened hitems

end Clauses

/-! ### JSON values -/

section Outcome

variable {ε α β : Type} {f : α → Except ε β} {p : β → Prop}

/-- What holds of each outcome holds of all that are read. -/
theorem forall_of_mapM {xs : List α} {ys : List β} (h : xs.mapM f = .ok ys)
    (hf : ∀ x ∈ xs, ∀ y, f x = .ok y → p y) : ∀ y ∈ ys, p y := by
  induction xs generalizing ys with
  | nil =>
    obtain rfl := Except.ok.inj h
    exact List.forall_mem_nil _
  | cons x rest ih =>
    rw [List.mapM_cons] at h
    obtain ⟨first, hfirst, h⟩ := bind_eq_ok.mp h
    obtain ⟨others, hothers, h⟩ := bind_eq_ok.mp h
    obtain rfl := Except.ok.inj h
    obtain ⟨hx, hrest⟩ := List.forall_mem_cons.mp hf
    exact List.forall_mem_cons.mpr ⟨hx first hfirst, ih hothers hrest⟩

end Outcome

section Fill

variable {clauses filled : Clauses}

theorem keyed_fillEntries {seen : List Clause} {sources : List (String × Forms Cause)}
    (hsources : ∀ source ∈ sources, source.2.Keyed) (h : clauses.Keyed)
    (hfill : fillEntries seen clauses sources = .ok filled) : filled.Keyed := by
  induction sources generalizing seen clauses with
  | nil => exact Except.ok.inj hfill ▸ h
  | cons source rest ih =>
    obtain ⟨hsource, hrest⟩ := List.forall_mem_cons.mp hsources
    obtain ⟨name, source⟩ := source
    rw [fillEntries] at hfill
    split at hfill
    · exact ih hrest h hfill
    · split at hfill
      · cases hfill
      · obtain ⟨next, hnext, hfill⟩ := bind_eq_ok.mp hfill
        exact ih hrest (h.fill hsource hnext) hfill

theorem keyed_fillItems {wanted : List Clause} {sources : List (Forms Cause)}
    (hsources : ∀ source ∈ sources, source.Keyed) (h : clauses.Keyed)
    (hfill : fillItems clauses wanted sources = .ok filled) : filled.Keyed := by
  induction wanted generalizing clauses sources with
  | nil => exact Except.ok.inj hfill ▸ h
  | cons clause wanted ih =>
    cases sources with
    | nil => cases hfill
    | cons source rest =>
      obtain ⟨hsource, hrest⟩ := List.forall_mem_cons.mp hsources
      obtain ⟨next, hnext, hfill⟩ := bind_eq_ok.mp hfill
      exact ih hrest (h.fill hsource hnext) hfill

theorem keyed_fillList {sources : List (Forms Cause)}
    (hsources : ∀ source ∈ sources, source.Keyed) (hfill : fillList sources = .ok filled) :
    filled.Keyed := by
  obtain ⟨read, hread, hfill⟩ := bind_eq_ok.mp hfill
  split at hfill
  · exact Except.ok.inj hfill ▸ keyed_fillItems hsources .empty hread
  · cases hfill

end Fill

namespace Forms

section Entries

variable {ε : Type} {entries : List (String × Forms ε)}

theorem sublist_acceptedEntries (entries : List (String × Forms ε)) :
    ((acceptedEntries entries).map Prod.fst).Sublist (entries.map Prod.fst) := by
  induction entries with
  | nil => exact .slnil
  | cons entry rest ih =>
    rw [acceptedEntries, List.filterMap_cons]
    cases entry.2.schema with
    | ok schema => exact ih.cons_cons entry.1
    | error cause => exact ih.cons entry.1

/-- The entries that are schema objects repeat no key if the entries do not. -/
theorem keyed_acceptedEntries (hdistinct : (entries.map Prod.fst).Nodup)
    (h : ∀ entry ∈ entries, entry.2.Keyed) : ClauseMap.Keyed (acceptedEntries entries) := by
  refine ⟨hdistinct.sublist (sublist_acceptedEntries entries), fun accepted haccepted => ?_⟩
  obtain ⟨entry, hentry, hsome⟩ := List.mem_filterMap.mp haccepted
  split at hsome
  · next schema hschema =>
    obtain rfl := Option.some.inj hsome
    exact (h entry hentry).schema schema hschema
  · cases hsome

theorem keyed_schemaEntries {schemas : ClauseMap} (hdistinct : (entries.map Prod.fst).Nodup)
    (h : ∀ entry ∈ entries, entry.2.Keyed) (hread : schemaEntries entries = .ok schemas) :
    schemas.Keyed := by
  refine ⟨?_, forall_of_mapM hread fun entry hentry read hschema => ?_⟩
  · rw [ClauseMap.Distinct, map_fst_schemaEntries hread]
    exact hdistinct
  · obtain ⟨schema, hok, rfl⟩ := map_eq_ok.mp hschema
    exact (h entry hentry).schema schema hok

end Entries

/-- A source that only the form of any value accepts. -/
theorem keyed_scalar (value : Value) : (scalar value).Keyed where
  additional said h entries hentries := by
    obtain rfl := Except.ok.inj h
    cases hentries
  schema _ h := nomatch h
  schemas _ h := nomatch h
  schemaMap _ h := nomatch h

mutual

/-- **A JSON value** that repeats no key is read as nothing that does. -/
theorem keyed_ofValue : ∀ {value : Value}, value.DistinctKeys → (ofValue value).Keyed
  | .null, _ => { keyed_scalar .null with }
  | .boolean value, _ => {
      keyed_scalar (.boolean value) with
      additional := by
        rintro said h entries hentries
        obtain rfl := Except.ok.inj h
        cases value with
        | true => exact Option.some.inj hentries ▸ ClauseMap.keyed_nil
        | false => cases hentries }
  | .number value, _ => keyed_scalar (.number value)
  | .text value, _ => { keyed_scalar (.text value) with }
  | .array items, h => by
    rw [Value.DistinctKeys] at h
    have hitems := keyed_ofItems h
    rw [ofValue]
    exact { keyed_scalar (.array items) with
      schema := fun clauses hclauses => keyed_fillList hitems hclauses
      schemas := fun parts hparts =>
        forall_of_mapM hparts fun source hsource part hpart =>
          (hitems source hsource).schema part hpart }
  | .object entries, h => by
    rw [Value.DistinctKeys] at h
    have hentries := keyed_ofEntries h.2
    have hdistinct : ((ofEntries entries).map Prod.fst).Nodup := by
      rw [ofEntries_eq, List.map_map]
      exact h.1
    rw [ofValue]
    exact {
      additional := by
        rintro said hsaid schemas hschemas
        obtain rfl := Except.ok.inj hsaid
        exact Option.some.inj hschemas ▸ keyed_acceptedEntries hdistinct hentries
      schema := fun clauses hclauses => keyed_fillEntries hentries .empty hclauses
      schemas := fun _ hparts => nomatch hparts
      schemaMap := fun schemas hschemas => keyed_schemaEntries hdistinct hentries hschemas }

theorem keyed_ofItems : ∀ {items : List Value}, Value.DistinctItems items →
    ∀ source ∈ ofItems items, source.Keyed
  | [], _ => List.forall_mem_nil _
  | _ :: _, h => List.forall_mem_cons.mpr ⟨keyed_ofValue h.1, keyed_ofItems h.2⟩

theorem keyed_ofEntries : ∀ {entries : List (String × Value)}, Value.DistinctEntries entries →
    ∀ source ∈ ofEntries entries, source.2.Keyed
  | [], _ => List.forall_mem_nil _
  | (_, _) :: _, h => List.forall_mem_cons.mpr ⟨keyed_ofValue h.1, keyed_ofEntries h.2⟩

end

end Forms

theorem Forms.additional_ofValue (value : Value) :
    (ofValue value).additional = .ok (Additional.ofValue value) := by
  cases value with
  | boolean value => cases value <;> rfl
  | object entries => rw [additional_ofValue_object, ofValue]
  | _ => rfl

/-! ### Nodes of a text -/

namespace Part

theorem keyed_scalar (room : Nat) (tree : Tree) : (scalar room tree).forms.Keyed where
  additional said h entries hentries := by
    obtain ⟨value, hvalue, rfl⟩ := map_eq_ok.mp h
    exact (Forms.keyed_ofValue (Tree.distinctKeys_of_value hvalue)).additional _
      (Forms.additional_ofValue value) entries hentries
  schema _ h := nomatch h
  schemas _ h := nomatch h
  schemaMap _ h := nomatch h

section Parts

variable {parts : List Part} {entries : List (Key × Part)}

theorem keyed_schemas {ending : ListEnd} {read : List Clauses}
    (hparts : ∀ part ∈ parts, part.forms.Keyed) (h : schemas ending parts = .ok read) :
    ∀ clauses ∈ read, clauses.Keyed := by
  obtain ⟨found, hfound, h⟩ := bind_eq_ok.mp h
  obtain ⟨_, -, h⟩ := bind_eq_ok.mp h
  obtain rfl := Except.ok.inj h
  exact forall_of_mapM hfound fun part hpart => (hparts part hpart).schema

theorem keyed_schemaMap {ending : ObjectEnd} {read : ClauseMap}
    (hentries : ∀ entry ∈ entries, entry.2.forms.Keyed)
    (h : schemaMap ending entries = .ok read) : read.Keyed := by
  obtain ⟨found, hfound, h⟩ := bind_eq_ok.mp h
  obtain ⟨_, -, h⟩ := bind_eq_ok.mp h
  obtain rfl := Except.ok.inj h
  have hinside : ∀ pair ∈ found, pair.2.Keyed :=
    forall_of_mapM hfound fun entry hentry pair hpair => by
      obtain ⟨name, -, hpair⟩ := bind_eq_ok.mp hpair
      obtain ⟨schema, hschema, hpair⟩ := bind_eq_ok.mp hpair
      obtain rfl := Except.ok.inj hpair
      exact (hentries entry hentry).schema schema hschema
  exact ⟨Entries.nodup_collect found, Entries.forall_collect hinside⟩

theorem keyed_readList {ending : ListEnd} {read : Clauses}
    (hparts : ∀ part ∈ parts, part.forms.Keyed)
    (h : schemaRecord.readList ending parts = .ok read) : read.Keyed :=
  Record.readList_induction h Clauses.Keyed.empty fun part hpart _ _ _ hsofar hfill =>
    Clauses.Keyed.fill hsofar (hparts part hpart) hfill

theorem keyed_readObject {ending : ObjectEnd} {read : Clauses}
    (hentries : ∀ entry ∈ entries, entry.2.forms.Keyed)
    (h : schemaRecord.readObject ending entries = .ok read) : read.Keyed :=
  Record.readObject_induction h Clauses.Keyed.empty fun entry hentry _ _ _ hsofar hfill =>
    Clauses.Keyed.fill hsofar (hentries entry hentry) hfill

end Parts

mutual

/-- **A node of a text** is read as nothing that repeats a key. -/
theorem keyed_ofTree (room : Nat) : ∀ tree : Tree, (ofTree room tree).forms.Keyed
  | .absent next => keyed_scalar room (.absent next)
  | .plain reading checking start stop => {
      keyed_scalar room (.plain reading checking start stop) with }
  | .text reading checking start stop => {
      keyed_scalar room (.text reading checking start stop) with }
  | .list start items ending => {
      keyed_scalar room (.list start items ending) with
      schema := fun _ h =>
        keyed_readList (keyed_ofItems (room - 1) items) (inside_eq_ok.mp h).2
      schemas := fun _ h =>
        keyed_schemas (keyed_ofItems (room - 1) items) (inside_eq_ok.mp h).2 }
  | .object start entries ending => {
      keyed_scalar room (.object start entries ending) with
      schema := fun _ h =>
        keyed_readObject (keyed_ofEntries (room - 1) entries) (inside_eq_ok.mp h).2
      schemaMap := fun _ h =>
        keyed_schemaMap (keyed_ofEntries (room - 1) entries) (inside_eq_ok.mp h).2 }

theorem keyed_ofItems (room : Nat) :
    ∀ items : List Tree, ∀ part ∈ ofItems room items, part.forms.Keyed
  | [] => List.forall_mem_nil _
  | item :: rest => List.forall_mem_cons.mpr ⟨keyed_ofTree room item, keyed_ofItems room rest⟩

theorem keyed_ofEntries (room : Nat) :
    ∀ entries : List (Key × Tree), ∀ entry ∈ ofEntries room entries, entry.2.forms.Keyed
  | [] => List.forall_mem_nil _
  | (_, tree) :: rest =>
    List.forall_mem_cons.mpr ⟨keyed_ofTree room tree, keyed_ofEntries room rest⟩

end

end Part

/-! ### Nodes -/

namespace Node

/-- Neither the properties of a node nor the entries of the open map that it is repeat a key. -/
structure KeysDiffer (node : Node) : Prop where
  properties : ∀ entries ∈ node.properties, (entries.map Prod.fst).Nodup
  opened : ∀ entries ∈ node.openEntries?, (entries.map Prod.fst).Nodup

/-- No map in a node repeats a key, at any depth. -/
def Keyed (node : Node) : Prop :=
  ∀ inner : Node, inner.Inside node → inner.KeysDiffer

theorem Keyed.of_children {node : Node} (hnode : node.KeysDiffer)
    (h : ∀ child ∈ node.children, child.Keyed) : node.Keyed := by
  intro inner hinner
  rcases Relation.ReflTransGen.cases_tail hinner with rfl | ⟨child, hinner, hchild⟩
  · exact hnode
  · exact h child hchild inner hinner

/-- The node of a schema object without repeated keys. -/
theorem keyed_ofClauses {clauses : Clauses} (h : clauses.Keyed) : (ofClauses clauses).Keyed := by
  induction h with
  | @intro clauses hdistinct _ _ hdistinctOpened _ _ hproperties hparts hopened hitems =>
    have hopenedOf : ∀ entries ∈ (ofClauses clauses).openEntries?, ∃ found ∈ clauses.opened,
        ofEntries found = entries := by
      intro entries hentries
      rw [openEntries?_ofClauses] at hentries
      split at hentries
      · cases hentries
      · exact Option.map_eq_some_iff.mp hentries
    refine .of_children ⟨?_, ?_⟩ (forall_mem_children ?_ ?_ ?_ ?_)
    · intro entries hentries
      rw [properties_ofClauses] at hentries
      obtain ⟨found, hfound, rfl⟩ := Option.map_eq_some_iff.mp hentries
      rw [map_fst_ofEntries]
      exact hdistinct found hfound
    · intro entries hentries
      obtain ⟨found, hfound, rfl⟩ := hopenedOf entries hentries
      rw [map_fst_ofEntries]
      exact hdistinctOpened found hfound
    · intro parts hin part hpart
      rw [parts?_ofClauses] at hin
      split at hin
      · cases hin
      · obtain ⟨found, hfound, rfl⟩ := Option.map_eq_some_iff.mp hin
        rw [ofParts_eq] at hpart
        obtain ⟨clauses, hclauses, rfl⟩ := List.mem_map.mp hpart
        exact hparts found hfound clauses hclauses
    · intro entries hentries entry hentry
      obtain ⟨found, hfound, rfl⟩ := hopenedOf entries hentries
      rw [ofEntries_eq] at hentry
      obtain ⟨entry, hin, rfl⟩ := List.mem_map.mp hentry
      exact hopened found hfound entry hin
    · intro entries hentries entry hentry
      rw [properties_ofClauses] at hentries
      obtain ⟨found, hfound, rfl⟩ := Option.map_eq_some_iff.mp hentries
      rw [ofEntries_eq] at hentry
      obtain ⟨entry, hin, rfl⟩ := List.mem_map.mp hentry
      exact hproperties found hfound entry hin
    · intro item hitem
      rw [items_ofClauses] at hitem
      obtain ⟨found, hfound, rfl⟩ := Option.map_eq_some_iff.mp hitem
      exact hitems found hfound

end Node

/-! ### Documents -/

/-- No two definitions of a document share a name, and no map in them repeats a key. -/
structure Document.Keyed (document : Document) : Prop where
  distinct : document.Distinct
  inside : ∀ definition ∈ document.definitions, definition.2.Keyed

/-- **A document that was read** repeats no key, even if its text does. -/
theorem Document.keyed_ofText {file : String} {text : List Char} {document : Document}
    (h : ofText file text = .ok document) : document.Keyed := by
  obtain ⟨definitions, ⟨room, tree, hread⟩, hdocument⟩ := exists_isRead_of_ofText h
  have hkeyed := (Part.keyed_ofTree room tree).schemaMap definitions hread
  refine ⟨distinct_ofText h, fun definition hdefinition => ?_⟩
  rw [hdocument, Node.ofEntries_eq] at hdefinition
  obtain ⟨entry, hentry, rfl⟩ := List.mem_map.mp hdefinition
  exact Node.keyed_ofClauses (hkeyed.inside entry hentry)

end Schema

end SchemaTypes
