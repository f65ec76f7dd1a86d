import SchemaTypes.Proofs.Schema.Distinct
import SchemaTypes.Proofs.Schema.Sources

/-!
# Schema objects in texts and in values

A source is a node of the tree of a text or a JSON value. A node that writes a value agrees with the
value in every form, to any depth, as long as there is room for the node.

A node writes a repeated key twice, and a value holds each key once. A node is therefore compared
with a source that is made from what it writes, and that is the value if no object repeats a key.

## Main definitions

* `Schema.Forms.ofWritten`: what a node writes as a source

## Main results

* `Schema.Part.agree_ofTree`: a node and what it writes
* `Schema.Forms.ofWritten_eq_ofValue`: what is written without repeated keys is a value
-/

namespace SchemaTypes

namespace Schema

open Json

/-! ### What is written as a source -/

namespace Forms

mutual

/-- What a node writes as a source. A map of schemas collects its entries, a schema object refuses a
repeated clause, and what is kept as a value is collected first. -/
def ofWritten : Value → Forms Cause
  | .null => ofValue .null
  | .boolean value => ofValue (.boolean value)
  | .number value => ofValue (.number value)
  | .text value => ofValue (.text value)
  | .array items =>
    let sources := ofWrittenItems items
    { scalar (Value.array items).collected with
      values := .ok (Value.collectedItems items)
      schema := fillList sources
      schemas := sources.mapM fun source => source.schema }
  | .object entries =>
    let sources := ofWrittenEntries entries
    { scalar (Value.object entries).collected with
      additional := .ok (Additional.ofValue (Value.object entries).collected)
      schema := fillEntries [] .empty sources
      schemaMap := (schemaEntries sources).map Entries.collect }

/-- What items write as sources. -/
def ofWrittenItems : List Value → List (Forms Cause)
  | [] => []
  | item :: rest => ofWritten item :: ofWrittenItems rest

/-- What entries write as keyed sources. -/
def ofWrittenEntries : List (String × Value) → List (String × Forms Cause)
  | [] => []
  | (key, value) :: rest => (key, ofWritten value) :: ofWrittenEntries rest

end

end Forms

/-! ### Nodes -/

/-- A node that can be read is not refused for its depth. -/
theorem refuse_ne_tooDeep {tree : Tree} {value : Value} (h : tree.written = some value)
    (wanted : String) : (tree.refuse wanted).cause ≠ .tooDeep := by
  cases tree with
  | absent next => cases h
  | plain reading checking start stop =>
    obtain ⟨scalar, hscalar, -⟩ := Option.map_eq_some_iff.mp h
    obtain rfl := toOption_eq_some.mp hscalar
    exact fun hcause => nomatch hcause
  | text reading checking start stop =>
    obtain ⟨read, hread, -⟩ := Option.map_eq_some_iff.mp h
    obtain rfl := toOption_eq_some.mp hread
    exact fun hcause => nomatch hcause
  | list start items ending => exact fun hcause => nomatch hcause
  | object start entries ending => exact fun hcause => nomatch hcause

namespace Part

/-- What only the form of any value accepts. -/
theorem agree_scalar {tree : Tree} {value : Value} (h : tree.written = some value) (room : Nat) :
    (scalar room tree).forms.Agree (room < value.depth)
      { Forms.scalar value.collected with
        isNull := tree.isNull
        additional := .ok (Additional.ofValue value.collected) } where
  isNull := rfl
  value := Tree.agrees_value room h
  text := .refused _ (refuse_ne_tooDeep h textWanted)
  truth := .refused _ (refuse_ne_tooDeep h truthWanted)
  values := .refused _ (refuse_ne_tooDeep h listWanted)
  additional := (Tree.agrees_value room h).map Additional.ofValue
  schema := .refused _ (refuse_ne_tooDeep h schemaWanted)
  schemas := .refused _ (refuse_ne_tooDeep h listWanted)
  schemaMap := .refused _ (refuse_ne_tooDeep h mapWanted)

theorem tree_ofTree (room : Nat) (tree : Tree) : (ofTree room tree).tree = tree := by
  cases tree <;> rfl

theorem agree_plain (room : Nat) (scalar : Plain) (checking : Except Fault Unit)
    (start stop : Nat) :
    (ofTree room (.plain (.ok scalar) checking start stop)).forms.Agree
      (room < scalar.value.depth) (.ofWritten scalar.value) := by
  have hwritten : (Tree.plain (.ok scalar) checking start stop).written = some scalar.value := rfl
  have hforms := agree_scalar hwritten room
  cases scalar with
  | null => exact hforms
  | boolean truth => cases truth <;> exact { hforms with truth := .same _ }
  | number number => exact hforms

theorem agree_text (room : Nat) (read : String) (checking : Except Fault Unit)
    (start stop : Nat) :
    (ofTree room (.text (.ok read) checking start stop)).forms.Agree
      (room < (Value.text read).depth) (.ofWritten (.text read)) := by
  have hwritten : (Tree.text (.ok read) checking start stop).written = some (.text read) := rfl
  exact { agree_scalar hwritten room with text := .same read }

theorem agree_list {room : Nat} {items : List Tree} {values : List Value}
    (hvalues : Tree.writtenItems items = some values)
    (hparts : List.Forall₂ (Part.Agrees (room - 1 < Value.depthItems values))
      (ofItems (room - 1) items) (Forms.ofWrittenItems values)) (start stop : Nat) :
    (ofTree room (.list start items (.closed stop))).forms.Agree
      (room < (Value.array values).depth) (.ofWritten (.array values)) := by
  have hwritten : (Tree.list start items (.closed stop)).written = some (.array values) := by
    rw [Tree.written, hvalues]
    rfl
  have hread := (Tree.agrees_values (room - 1) hvalues).bind_ok (.same _)
  have hforms := agree_scalar hwritten room
  rw [Value.depth] at hforms ⊢
  exact { hforms with
    values := .inside hread start
    schema := .inside (agrees_readList hparts stop) start
    schemas := .inside (agrees_schemas hparts stop) start }

theorem agree_object {room : Nat} {entries : List (Key × Tree)} {values : List (String × Value)}
    (hvalues : Tree.writtenEntries entries = some values)
    (hentries : List.Forall₂ (EntryAgrees (room - 1 < Value.depthEntries values))
      (ofEntries (room - 1) entries) (Forms.ofWrittenEntries values)) (start stop : Nat) :
    (ofTree room (.object start entries (.closed stop))).forms.Agree
      (room < (Value.object values).depth) (.ofWritten (.object values)) := by
  have hwritten : (Tree.object start entries (.closed stop)).written = some (.object values) := by
    rw [Tree.written, hvalues]
    rfl
  have hforms := agree_scalar hwritten room
  rw [Value.depth] at hforms ⊢
  exact { hforms with
    schema := .inside (agrees_readEntries hentries [] .empty true stop) start
    schemaMap := .inside (agrees_schemaMap hentries stop) start }

mutual

/-- **A node and what it writes** agree in every form, if there is room for the node. -/
theorem agree_ofTree (room : Nat) {value : Value} : ∀ {tree : Tree}, tree.Writes value →
    (ofTree room tree).forms.Agree (room < value.depth) (.ofWritten value)
  | .absent next, h => by cases h.1
  | .plain reading checking start stop, h => by
    obtain ⟨scalar, hscalar, rfl⟩ := Option.map_eq_some_iff.mp h.1
    obtain rfl := toOption_eq_some.mp hscalar
    exact agree_plain room scalar checking start stop
  | .text reading checking start stop, h => by
    obtain ⟨read, hread, rfl⟩ := Option.map_eq_some_iff.mp h.1
    obtain rfl := toOption_eq_some.mp hread
    exact agree_text room read checking start stop
  | .list start items ending, h => by
    cases ending with
    | closed stop =>
      obtain ⟨values, hvalues, rfl⟩ := Option.map_eq_some_iff.mp h.1
      obtain ⟨_, hcheck, -⟩ := bind_eq_ok.mp h.2
      exact agree_list hvalues (agrees_ofItems (room - 1) hvalues hcheck) start stop
    | _ => cases h.1
  | .object start entries ending, h => by
    cases ending with
    | closed stop =>
      obtain ⟨values, hvalues, rfl⟩ := Option.map_eq_some_iff.mp h.1
      obtain ⟨_, hcheck, -⟩ := bind_eq_ok.mp h.2
      exact agree_object hvalues (agrees_ofEntries (room - 1) hvalues hcheck) start stop
    | _ => cases h.1

theorem agrees_ofItems (room : Nat) {values : List Value} : ∀ {items : List Tree},
    Tree.writtenItems items = some values → Tree.checkItems items = .ok () →
      List.Forall₂ (Part.Agrees (room < Value.depthItems values)) (ofItems room items)
        (Forms.ofWrittenItems values)
  | [], h, _ => by
    obtain rfl := Option.some.inj h
    exact .nil
  | item :: rest, h, hcheck => by
    obtain ⟨first, hfirst, h⟩ := Option.bind_eq_some_iff.mp h
    obtain ⟨others, hothers, h⟩ := Option.bind_eq_some_iff.mp h
    obtain ⟨_, hitem, hrest⟩ := bind_eq_ok.mp hcheck
    rw [← Option.some.inj h, Value.depthItems, Forms.ofWrittenItems]
    refine .cons ⟨(tree_ofTree room item).symm ▸ hitem, ?_⟩ ?_
    · exact (agree_ofTree room ⟨hfirst, hitem⟩).mono fun hdeep =>
        Nat.lt_of_lt_of_le hdeep (Nat.le_max_left ..)
    · exact (agrees_ofItems room hothers hrest).imp fun part source hpart =>
        hpart.mono fun hdeep => Nat.lt_of_lt_of_le hdeep (Nat.le_max_right ..)

theorem agrees_ofEntries (room : Nat) {values : List (String × Value)} :
    ∀ {entries : List (Key × Tree)}, Tree.writtenEntries entries = some values →
      Tree.checkEntries entries = .ok () →
      List.Forall₂ (EntryAgrees (room < Value.depthEntries values)) (ofEntries room entries)
        (Forms.ofWrittenEntries values)
  | [], h, _ => by
    obtain rfl := Option.some.inj h
    exact .nil
  | (key, tree) :: rest, h, hcheck => by
    obtain ⟨name, hname, h⟩ := Option.bind_eq_some_iff.mp h
    obtain ⟨first, hfirst, h⟩ := Option.bind_eq_some_iff.mp h
    obtain ⟨others, hothers, h⟩ := Option.bind_eq_some_iff.mp h
    obtain ⟨_, -, hcheck⟩ := bind_eq_ok.mp hcheck
    obtain ⟨_, htree, hrest⟩ := bind_eq_ok.mp hcheck
    rw [← Option.some.inj h, Value.depthEntries, Forms.ofWrittenEntries]
    refine .cons ⟨toOption_eq_some.mp hname, (tree_ofTree room tree).symm ▸ htree, ?_⟩ ?_
    · exact (agree_ofTree room ⟨hfirst, htree⟩).mono fun hdeep =>
        Nat.lt_of_lt_of_le hdeep (Nat.le_max_left ..)
    · exact (agrees_ofEntries room hothers hrest).imp fun entry source hentry =>
        ⟨hentry.key, hentry.part.mono fun hdeep =>
          Nat.lt_of_lt_of_le hdeep (Nat.le_max_right ..)⟩

end

end Part

/-! ### Values -/

namespace Forms

theorem ofEntries_eq (entries : List (String × Value)) :
    ofEntries entries = entries.map fun entry => (entry.1, ofValue entry.2) := by
  induction entries with
  | nil => rfl
  | cons entry rest ih => rw [ofEntries, ih, List.map_cons]

/-- An object of properties keeps the entries whose sources hold schema objects. -/
theorem additional_ofValue_object (entries : List (String × Value)) :
    Additional.ofValue (.object entries) = .entries (acceptedEntries (ofEntries entries)) := by
  rw [Additional.ofValue, acceptedEntries, ofEntries_eq, List.filterMap_map]
  congr 2
  funext entry
  rw [Clauses.ofValue, Function.comp_apply]
  cases (ofValue entry.2).schema <;> rfl

/-- Keyed schemas keep their keys. -/
theorem map_fst_schemaEntries {ε : Type} {entries : List (String × Forms ε)}
    {schemas : List (String × Clauses)} (h : schemaEntries entries = .ok schemas) :
    schemas.map Prod.fst = entries.map Prod.fst := by
  induction entries generalizing schemas with
  | nil =>
    obtain rfl := Except.ok.inj h
    rfl
  | cons entry rest ih =>
    rw [schemaEntries, List.mapM_cons] at h
    obtain ⟨first, hfirst, h⟩ := bind_eq_ok.mp h
    obtain ⟨others, hothers, h⟩ := bind_eq_ok.mp h
    obtain ⟨schema, -, rfl⟩ := map_eq_ok.mp hfirst
    obtain rfl := Except.ok.inj h
    rw [List.map_cons, ih hothers, List.map_cons]

/-- Keyed schemas with distinct keys stay when they are collected. -/
theorem map_collect_schemaEntries {entries : List (String × Value)}
    (h : (entries.map Prod.fst).Nodup) :
    (schemaEntries (ofEntries entries)).map Entries.collect =
      schemaEntries (ofEntries entries) := by
  cases hschemas : schemaEntries (ofEntries entries) with
  | error cause => rfl
  | ok schemas =>
    have hnodup : (schemas.map Prod.fst).Nodup := by
      rw [map_fst_schemaEntries hschemas, ofEntries_eq, List.map_map]
      exact h
    exact congrArg Except.ok (Entries.collect_eq_self hnodup)

mutual

/-- **What is written without repeated keys is a value**, also as a source. -/
theorem ofWritten_eq_ofValue : ∀ {value : Value}, value.DistinctKeys →
    ofWritten value = ofValue value
  | .null, _ | .boolean _, _ | .number _, _ | .text _, _ => rfl
  | .array items, h => by
    have hcollected := Value.collected_eq_self h
    rw [Value.DistinctKeys] at h
    rw [ofWritten, hcollected, Value.collectedItems_eq_self h, ofWrittenItems_eq_ofItems h, ofValue]
  | .object entries, h => by
    have hcollected := Value.collected_eq_self h
    rw [Value.DistinctKeys] at h
    rw [ofWritten, hcollected, ofWrittenEntries_eq_ofEntries h.2, map_collect_schemaEntries h.1,
      additional_ofValue_object, ofValue]

theorem ofWrittenItems_eq_ofItems : ∀ {items : List Value}, Value.DistinctItems items →
    ofWrittenItems items = ofItems items
  | [], _ => rfl
  | item :: rest, h => by
    rw [Value.DistinctItems] at h
    rw [ofWrittenItems, ofWritten_eq_ofValue h.1, ofWrittenItems_eq_ofItems h.2, ofItems]

theorem ofWrittenEntries_eq_ofEntries : ∀ {entries : List (String × Value)},
    Value.DistinctEntries entries → ofWrittenEntries entries = ofEntries entries
  | [], _ => rfl
  | (key, value) :: rest, h => by
    rw [Value.DistinctEntries] at h
    rw [ofWrittenEntries, ofWritten_eq_ofValue h.1, ofWrittenEntries_eq_ofEntries h.2, ofEntries]

end

end Forms

end Schema

end SchemaTypes
