import SchemaTypes.Json.Read
import SchemaTypes.Proofs.Json.Record

/-!
# The value that a node writes

A node of a tree writes a value if it is complete and everything in it can be read. The value is
told with every entry of every object, repeated keys included, and to any depth. A reader of values
keeps less of it: it collects the entries of an object, and it refuses what nests too deep.

## Main definitions

* `Json.Value.collected`: a value as a reader keeps it
* `Json.Value.DistinctKeys`, `Json.Value.depth`: what a reader has to do with repeated keys and with
  nesting
* `Json.Tree.written`, `Json.Tree.Writes`: the value that a node writes

## Main results

* `Json.Value.collected_eq_self`: a reader keeps a value in which no object repeats a key
* `Json.Tree.exists_written_of_value`: what is read is what is written
-/

namespace SchemaTypes

namespace Entries

variable {α : Type}

theorem put_of_notMem {key : String} (value : α) {entries : List (String × α)}
    (h : key ∉ entries.map Prod.fst) : put key value entries = entries ++ [(key, value)] := by
  induction entries with
  | nil => rfl
  | cons entry rest ih =>
    obtain ⟨hne, hrest⟩ := not_or.mp (mt List.mem_cons.mpr h)
    rw [put, if_neg (Ne.symm hne), ih hrest, List.cons_append]

/-- Entries with distinct keys stay when they are collected. -/
theorem collect_eq_self {pairs : List (String × α)} (h : (pairs.map Prod.fst).Nodup) :
    collect pairs = pairs := by
  have hfold : ∀ entries : List (String × α), ((entries ++ pairs).map Prod.fst).Nodup →
      pairs.foldl (fun entries pair => put pair.1 pair.2 entries) entries = entries ++ pairs := by
    clear h
    induction pairs with
    | nil => exact fun entries _ => (List.append_nil entries).symm
    | cons pair rest ih =>
      intro entries hnodup
      have hnew : pair.1 ∉ entries.map Prod.fst := by
        rw [List.map_append, List.nodup_append] at hnodup
        intro hmem
        exact hnodup.2.2 pair.1 hmem pair.1 List.mem_cons_self rfl
      rw [List.append_cons] at hnodup
      rw [List.foldl_cons, put_of_notMem pair.2 hnew, ih _ hnodup, ← List.append_cons]
  exact hfold [] h

end Entries

namespace Json

/-! ### Values with repeated keys -/

namespace Value

mutual

/-- The value as a reader keeps it: each key of an object once, with the last of its values. -/
def collected : Value → Value
  | null => null
  | boolean value => boolean value
  | number value => number value
  | text value => text value
  | array items => array (collectedItems items)
  | object entries => object (Entries.collect (collectedEntries entries))

/-- Items as a reader keeps them. -/
def collectedItems : List Value → List Value
  | [] => []
  | item :: rest => collected item :: collectedItems rest

/-- The values of entries as a reader keeps them. -/
def collectedEntries : List (String × Value) → List (String × Value)
  | [] => []
  | (key, value) :: rest => (key, collected value) :: collectedEntries rest

end

mutual

/-- No object repeats a key. -/
def DistinctKeys : Value → Prop
  | null | boolean _ | number _ | text _ => True
  | array items => DistinctItems items
  | object entries => (entries.map Prod.fst).Nodup ∧ DistinctEntries entries

/-- No object in the items repeats a key. -/
def DistinctItems : List Value → Prop
  | [] => True
  | item :: rest => DistinctKeys item ∧ DistinctItems rest

/-- No object in the values of entries repeats a key. -/
def DistinctEntries : List (String × Value) → Prop
  | [] => True
  | (_, value) :: rest => DistinctKeys value ∧ DistinctEntries rest

end

mutual

/-- How deep lists and objects nest. -/
def depth : Value → Nat
  | null | boolean _ | number _ | text _ => 0
  | array items => depthItems items + 1
  | object entries => depthEntries entries + 1

/-- How deep lists and objects nest in items. -/
def depthItems : List Value → Nat
  | [] => 0
  | item :: rest => max (depth item) (depthItems rest)

/-- How deep lists and objects nest in the values of entries. -/
def depthEntries : List (String × Value) → Nat
  | [] => 0
  | (_, value) :: rest => max (depth value) (depthEntries rest)

end

mutual

/-- A reader keeps a value in which no object repeats a key. -/
theorem collected_eq_self : ∀ {value : Value}, value.DistinctKeys → value.collected = value
  | null, _ | boolean _, _ | number _, _ | text _, _ => rfl
  | array items, h => by
    rw [DistinctKeys] at h
    rw [collected, collectedItems_eq_self h]
  | object entries, h => by
    rw [DistinctKeys] at h
    rw [collected, collectedEntries_eq_self h.2, Entries.collect_eq_self h.1]

theorem collectedItems_eq_self : ∀ {items : List Value}, DistinctItems items →
    collectedItems items = items
  | [], _ => rfl
  | item :: rest, h => by
    rw [DistinctItems] at h
    rw [collectedItems, collected_eq_self h.1, collectedItems_eq_self h.2]

theorem collectedEntries_eq_self : ∀ {entries : List (String × Value)}, DistinctEntries entries →
    collectedEntries entries = entries
  | [], _ => rfl
  | (key, value) :: rest, h => by
    rw [DistinctEntries] at h
    rw [collectedEntries, collected_eq_self h.1, collectedEntries_eq_self h.2]

end

end Value

/-! ### What a node writes -/

namespace Tree

mutual

/-- The value that a node writes, if it is complete and can be read, to any depth. -/
def written : Tree → Option Value
  | plain reading _ _ _ => reading.toOption.map Plain.value
  | text reading _ _ _ => reading.toOption.map Value.text
  | list _ items (.closed _) => (writtenItems items).map Value.array
  | object _ entries (.closed _) => (writtenEntries entries).map Value.object
  | _ => none

/-- The values that items write. -/
def writtenItems : List Tree → Option (List Value)
  | [] => some []
  | item :: rest => do
    let first ← written item
    let others ← writtenItems rest
    some (first :: others)

/-- The keys and values that entries write. -/
def writtenEntries : List (Key × Tree) → Option (List (String × Value))
  | [] => some []
  | (key, tree) :: rest => do
    let name ← key.reading.toOption
    let first ← written tree
    let others ← writtenEntries rest
    some ((name, first) :: others)

end

/-- A node writes a value, and can be skipped. -/
def Writes (tree : Tree) (value : Value) : Prop :=
  tree.written = some value ∧ tree.check = .ok ()

end Tree

theorem toOption_eq_some {ε α : Type} {outcome : Except ε α} {read : α} :
    outcome.toOption = some read ↔ outcome = .ok read := by
  cases outcome with
  | error fault => exact ⟨fun h => (nomatch h), fun h => (nomatch h)⟩
  | ok value =>
    exact ⟨fun h => congrArg _ (Option.some.inj h), fun h => congrArg _ (Except.ok.inj h)⟩

/-! ### What a node reads as -/

namespace Tree

mutual

/-- What a node reads as is what it writes, with the entries of every object collected. -/
theorem exists_written_of_value {room : Nat} {value : Value} :
    ∀ {tree : Tree}, tree.value room = .ok value →
      ∃ written, tree.written = some written ∧ written.collected = value
  | .absent next, h => by cases h
  | .plain reading checking start stop, h => by
    obtain ⟨scalar, rfl, rfl⟩ := map_eq_ok.mp h
    refine ⟨scalar.value, rfl, ?_⟩
    cases scalar <;> rfl
  | .text reading checking start stop, h => by
    obtain ⟨read, rfl, rfl⟩ := map_eq_ok.mp h
    exact ⟨.text read, rfl, rfl⟩
  | .list start items ending, h => by
    obtain ⟨-, h⟩ := inside_eq_ok.mp h
    obtain ⟨read, hread, h⟩ := bind_eq_ok.mp h
    obtain ⟨_, hending, h⟩ := bind_eq_ok.mp h
    obtain ⟨written, hwritten, rfl⟩ := exists_writtenItems_of_values hread
    cases ending with
    | closed stop =>
      rw [← Except.ok.inj h, Tree.written, hwritten]
      exact ⟨.array written, rfl, by rw [Value.collected]⟩
    | _ => cases hending
  | .object start entries ending, h => by
    obtain ⟨-, h⟩ := inside_eq_ok.mp h
    obtain ⟨read, hread, h⟩ := bind_eq_ok.mp h
    obtain ⟨_, hending, h⟩ := bind_eq_ok.mp h
    obtain ⟨written, hwritten, rfl⟩ := exists_writtenEntries_of_valueEntries hread
    cases ending with
    | closed stop =>
      rw [← Except.ok.inj h, Tree.written, hwritten]
      exact ⟨.object written, rfl, by rw [Value.collected]⟩
    | unclosed next => cases hending
    | dangling next => cases hending
    | keyOnly key =>
      obtain ⟨_, -, hending⟩ := bind_eq_ok.mp hending
      cases hending

theorem exists_writtenItems_of_values {room : Nat} {values : List Value} :
    ∀ {items : List Tree}, Tree.values room items = .ok values →
      ∃ written, writtenItems items = some written ∧ Value.collectedItems written = values
  | [], h => ⟨[], rfl, Except.ok.inj h⟩
  | item :: rest, h => by
    obtain ⟨first, hfirst, h⟩ := bind_eq_ok.mp h
    obtain ⟨others, hothers, h⟩ := bind_eq_ok.mp h
    obtain ⟨head, hhead, rfl⟩ := exists_written_of_value hfirst
    obtain ⟨tail, htail, rfl⟩ := exists_writtenItems_of_values hothers
    rw [← Except.ok.inj h, writtenItems, hhead, htail]
    exact ⟨head :: tail, rfl, by rw [Value.collectedItems]⟩

theorem exists_writtenEntries_of_valueEntries {room : Nat} {values : List (String × Value)} :
    ∀ {entries : List (Key × Tree)}, valueEntries room entries = .ok values →
      ∃ written, writtenEntries entries = some written ∧ Value.collectedEntries written = values
  | [], h => ⟨[], rfl, Except.ok.inj h⟩
  | (key, tree) :: rest, h => by
    obtain ⟨name, hname, h⟩ := bind_eq_ok.mp h
    obtain ⟨first, hfirst, h⟩ := bind_eq_ok.mp h
    obtain ⟨others, hothers, h⟩ := bind_eq_ok.mp h
    obtain ⟨head, hhead, rfl⟩ := exists_written_of_value hfirst
    obtain ⟨tail, htail, rfl⟩ := exists_writtenEntries_of_valueEntries hothers
    rw [← Except.ok.inj h, writtenEntries, toOption_eq_some.mpr hname, hhead, htail]
    exact ⟨(name, head) :: tail, rfl, by rw [Value.collectedEntries]⟩

end

/-! ### A node that writes an object -/

theorem exists_of_written_object {tree : Tree} {values : List (String × Value)}
    (h : tree.written = some (.object values)) :
    ∃ start stop entries, tree = .object start entries (.closed stop) ∧
      writtenEntries entries = some values := by
  cases tree with
  | absent next => cases h
  | plain reading checking start stop =>
    obtain ⟨scalar, -, hscalar⟩ := Option.map_eq_some_iff.mp h
    cases scalar <;> cases hscalar
  | text reading checking start stop =>
    obtain ⟨read, -, hread⟩ := Option.map_eq_some_iff.mp h
    cases hread
  | list start items ending =>
    cases ending with
    | closed stop =>
      obtain ⟨read, -, hread⟩ := Option.map_eq_some_iff.mp h
      cases hread
    | _ => cases h
  | object start entries ending =>
    cases ending with
    | closed stop =>
      obtain ⟨read, hentries, hread⟩ := Option.map_eq_some_iff.mp h
      exact ⟨start, stop, entries, rfl, Value.object.inj hread ▸ hentries⟩
    | _ => cases h

theorem exists_of_writtenEntries_cons {entries : List (Key × Tree)} {name : String}
    {value : Value} {values : List (String × Value)}
    (h : writtenEntries entries = some ((name, value) :: values)) :
    ∃ key node rest, entries = (key, node) :: rest ∧ key.reading = .ok name ∧
      node.written = some value ∧ writtenEntries rest = some values := by
  cases entries with
  | nil => cases h
  | cons entry rest =>
    obtain ⟨read, hread, h⟩ := Option.bind_eq_some_iff.mp h
    obtain ⟨first, hfirst, h⟩ := Option.bind_eq_some_iff.mp h
    obtain ⟨others, hothers, h⟩ := Option.bind_eq_some_iff.mp h
    obtain ⟨hhead, rfl⟩ := List.cons.inj (Option.some.inj h)
    obtain ⟨rfl, rfl⟩ := Prod.mk.inj hhead
    exact ⟨entry.1, entry.2, rest, rfl, toOption_eq_some.mp hread, hfirst, hothers⟩

theorem eq_nil_of_writtenEntries_nil {entries : List (Key × Tree)}
    (h : writtenEntries entries = some []) : entries = [] := by
  cases entries with
  | nil => rfl
  | cons entry rest =>
    obtain ⟨read, -, h⟩ := Option.bind_eq_some_iff.mp h
    obtain ⟨first, -, h⟩ := Option.bind_eq_some_iff.mp h
    obtain ⟨others, -, h⟩ := Option.bind_eq_some_iff.mp h
    cases h

/-- A node that writes an object with one entry holds a node that writes the value of the entry. -/
theorem Writes.exists_entry {tree : Tree} {name : String} {value : Value}
    (h : tree.Writes (.object [(name, value)])) :
    ∃ start stop key node, tree = .object start [(key, node)] (.closed stop) ∧
      key.reading = .ok name ∧ node.Writes value := by
  obtain ⟨hwritten, hcheck⟩ := h
  obtain ⟨start, stop, entries, rfl, hentries⟩ := exists_of_written_object hwritten
  obtain ⟨key, node, rest, rfl, hkey, hnode, hrest⟩ := exists_of_writtenEntries_cons hentries
  obtain rfl := eq_nil_of_writtenEntries_nil hrest
  obtain ⟨_, hcheck, -⟩ := bind_eq_ok.mp hcheck
  obtain ⟨_, -, hcheck⟩ := bind_eq_ok.mp hcheck
  obtain ⟨_, hcheck, -⟩ := bind_eq_ok.mp hcheck
  exact ⟨start, stop, key, node, rfl, hkey, hnode, hcheck⟩

end Tree

end Json

end SchemaTypes
