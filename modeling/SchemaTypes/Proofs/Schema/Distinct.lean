import SchemaTypes.Failure
import SchemaTypes.Proofs.Json.Record
import SchemaTypes.Proofs.Schema.Ingestion
import SchemaTypes.Proofs.Schema.Selection

/-!
# Distinct names in a document

A map of schemas keeps one entry for each key, whatever a text repeats. The definitions of a
document are such a map, so a document that was read has distinct names.

## Main definitions

* `Schema.ClauseMap.Distinct`: no two schemas share a key
* `Schema.ClauseMap.IsRead`: a map of schemas that some node of a text is read as

## Main results

* `Entries.nodup_collect`: entries that are collected have distinct keys
* `Schema.Part.nodup_schemaMap`: so have the schemas of a map
* `Schema.readRecord_induction`: what every field keeps, a record in a text has
* `Schema.Document.exists_isRead_of_ofText`: where the definitions of a document are read
* `Schema.Document.distinct_ofText`: the definitions of a document that was read
-/

namespace SchemaTypes

/-! ### Entries -/

namespace Entries

variable {α : Type}

/-- Writing an entry adds its key, unless it is there. -/
theorem map_fst_put (key : String) (value : α) (entries : List (String × α)) :
    (put key value entries).map Prod.fst =
      if key ∈ entries.map Prod.fst then entries.map Prod.fst
      else entries.map Prod.fst ++ [key] := by
  induction entries with
  | nil => rfl
  | cons entry rest ih =>
    obtain ⟨k, v⟩ := entry
    rw [put]
    split
    · next hk => simp [hk]
    · next hk =>
      rw [List.map_cons, ih, List.map_cons]
      split
      · next hmem => rw [if_pos (List.mem_cons_of_mem k hmem)]
      · next hmem =>
        have hnot : key ∉ k :: rest.map Prod.fst := by simp [hmem, Ne.symm hk]
        rw [if_neg hnot, List.cons_append]

theorem nodup_put (key : String) (value : α) {entries : List (String × α)}
    (h : (entries.map Prod.fst).Nodup) : ((put key value entries).map Prod.fst).Nodup := by
  rw [map_fst_put]
  split
  · exact h
  · next hkey =>
    rw [← List.concat_eq_append]
    exact h.concat hkey

/-- **Entries that are collected have distinct keys.** -/
theorem nodup_collect (pairs : List (String × α)) : ((collect pairs).map Prod.fst).Nodup := by
  have hfold : ∀ entries : List (String × α), (entries.map Prod.fst).Nodup →
      ((pairs.foldl (fun entries pair => put pair.1 pair.2 entries) entries).map
        Prod.fst).Nodup := by
    induction pairs with
    | nil => exact fun entries h => h
    | cons pair rest ih => exact fun entries h => ih _ (nodup_put pair.1 pair.2 h)
  exact hfold [] List.nodup_nil

end Entries

namespace Schema

open Json

/-! ### Parts -/

theorem Part.ofItems_eq (room : Nat) (items : List Tree) :
    ofItems room items = items.map (ofTree room) := by
  induction items with
  | nil => rfl
  | cons item rest ih => rw [ofItems, ih, List.map_cons]

theorem Part.ofEntries_eq (room : Nat) (entries : List (Key × Tree)) :
    ofEntries room entries = entries.map fun entry => (entry.1, ofTree room entry.2) := by
  induction entries with
  | nil => rfl
  | cons entry rest ih => rw [ofEntries, ih, List.map_cons]

/-! ### Maps of schemas -/

/-- No two schemas share a key. -/
def ClauseMap.Distinct (schemas : ClauseMap) : Prop :=
  (schemas.map Prod.fst).Nodup

/-- **The schemas of a map** have distinct keys. -/
theorem Part.nodup_schemaMap {room : Nat} {tree : Tree} {schemas : ClauseMap}
    (h : (ofTree room tree).forms.schemaMap = .ok schemas) : schemas.Distinct := by
  cases tree with
  | object start entries ending =>
    obtain ⟨-, h⟩ := inside_eq_ok.mp h
    obtain ⟨read, -, h⟩ := bind_eq_ok.mp h
    obtain ⟨_, -, h⟩ := bind_eq_ok.mp h
    rw [← Except.ok.inj h]
    exact Entries.nodup_collect read
  | _ => cases h

/-- What a form that may be `null` gives is what the form gives. -/
theorem Forms.mem_optional {ε α : Type} {forms : Forms ε} {form : Except ε α} {read : Option α}
    (h : forms.optional form = .ok read) : ∀ value ∈ read, form = .ok value := by
  rw [optional] at h
  split at h
  · cases h
    exact fun value hvalue => nomatch hvalue
  · obtain ⟨found, hfound, rfl⟩ := map_eq_ok.mp h
    intro value hvalue
    obtain rfl := Option.mem_some.mp hvalue
    exact hfound

/-! ### Documents -/

section ReadRecord

variable {φ σ : Type} [DecidableEq φ] {record : Record φ σ Part} {room : Nat} {tree : Tree}
  {result : σ} {motive : σ → Prop}

/-- A record in a text has what every field keeps that is read from a node. -/
theorem readRecord_induction (h : readRecord record room tree = .ok result)
    (empty : motive record.empty)
    (fill : ∀ node sofar field filled, motive sofar →
      record.fill sofar field (Part.ofTree (room - 1) node) = .ok filled → motive filled) :
    motive result := by
  cases tree with
  | list start items ending =>
    obtain ⟨-, h⟩ := inside_eq_ok.mp h
    refine Record.readList_induction h empty fun part hpart => ?_
    obtain ⟨node, -, rfl⟩ := List.mem_map.mp (Part.ofItems_eq (room - 1) items ▸ hpart)
    exact fill node
  | object start entries ending =>
    obtain ⟨-, h⟩ := inside_eq_ok.mp h
    refine Record.readObject_induction h empty fun entry hentry => ?_
    obtain ⟨node, -, rfl⟩ := List.mem_map.mp (Part.ofEntries_eq (room - 1) entries ▸ hentry)
    exact fill node.2
  | _ => cases h

end ReadRecord

/-- A map of schemas that some node of a text is read as. -/
def ClauseMap.IsRead (schemas : ClauseMap) : Prop :=
  ∃ room tree, (Part.ofTree room tree).forms.schemaMap = .ok schemas

/-- The definitions among the components of a document are read from a node. -/
theorem isRead_components {room : Nat} {tree : Tree} {components : Option ClauseMap}
    (h : readRecord componentRecord room tree = .ok components) :
    ∀ schemas ∈ components, ClauseMap.IsRead schemas := by
  refine readRecord_induction (motive := fun found => ∀ schemas ∈ found, ClauseMap.IsRead schemas)
    h (fun _ h => nomatch h) ?_
  intro node sofar field filled _ hfill schemas hschemas
  exact ⟨_, _, Forms.mem_optional hfill schemas hschemas⟩

/-- Wherever a document can hold definitions, they are read from a node. -/
structure DefinitionSources.AreRead (sources : DefinitionSources) : Prop where
  definitions : ∀ schemas ∈ sources.definitions, ClauseMap.IsRead schemas
  components : ∀ found ∈ sources.components, ∀ schemas ∈ found, ClauseMap.IsRead schemas

namespace DefinitionSources

theorem areRead_of_readRecord {room : Nat} {tree : Tree} {sources : DefinitionSources}
    (h : readRecord documentRecord room tree = .ok sources) : sources.AreRead := by
  have hempty : documentRecord.empty.AreRead :=
    ⟨fun _ h => (nomatch h), fun _ h => (nomatch h)⟩
  refine readRecord_induction h hempty ?_
  intro node sofar field filled hsofar hfill
  cases field with
  | definitions =>
    obtain ⟨read, hread, rfl⟩ := map_eq_ok.mp hfill
    have hdefinitions : ∀ schemas ∈ read, ClauseMap.IsRead schemas :=
      fun schemas hschemas => ⟨_, _, Forms.mem_optional hread schemas hschemas⟩
    exact ⟨hdefinitions, hsofar.components⟩
  | components =>
    obtain ⟨read, hread, rfl⟩ := map_eq_ok.mp hfill
    have hcomponents : ∀ found ∈ read, ∀ schemas ∈ found, ClauseMap.IsRead schemas :=
      fun found hfound => isRead_components (Forms.mem_optional hread found hfound)
    exact ⟨hsofar.definitions, hcomponents⟩

theorem AreRead.chosen {sources : DefinitionSources} (h : sources.AreRead) {schemas : ClauseMap}
    (hchosen : sources.chosen = some schemas) : ClauseMap.IsRead schemas := by
  rw [DefinitionSources.chosen, Option.or_eq_some_iff] at hchosen
  rcases hchosen with htop | ⟨-, hbelow⟩
  · exact h.definitions schemas htop
  · obtain ⟨found, hfound, hschemas⟩ := Option.bind_eq_some_iff.mp hbelow
    exact h.components found hfound schemas hschemas

end DefinitionSources

/-- The definitions of a document that was read are a map that a node of its text is read as. -/
theorem Document.exists_isRead_of_ofText {file : String} {text : List Char} {document : Document}
    (h : ofText file text = .ok document) :
    ∃ definitions, ClauseMap.IsRead definitions ∧
      document.definitions = Node.ofEntries definitions := by
  rw [ofText] at h
  split at h
  · cases h
  next sources hsources =>
  obtain ⟨read, hread, hclosed⟩ := bind_eq_ok.mp hsources
  split at hclosed
  · obtain rfl := Except.ok.inj hclosed
    split at h
    · cases h
    · next definitions hdefinitions =>
      obtain rfl := Except.ok.inj h
      exact ⟨definitions, (DefinitionSources.areRead_of_readRecord hread).chosen hdefinitions, rfl⟩
  · cases hclosed

theorem Node.map_fst_ofEntries (entries : List (String × Clauses)) :
    (ofEntries entries).map Prod.fst = entries.map Prod.fst := by
  rw [ofEntries_eq, List.map_map]
  rfl

/-- **The definitions of a document that was read have distinct names**, even if its text repeats a
name. -/
theorem Document.distinct_ofText {file : String} {text : List Char} {document : Document}
    (h : ofText file text = .ok document) : document.Distinct := by
  obtain ⟨definitions, ⟨room, tree, hread⟩, hdocument⟩ := exists_isRead_of_ofText h
  rw [Distinct, hdocument, Node.map_fst_ofEntries]
  exact Part.nodup_schemaMap hread

end Schema

end SchemaTypes
