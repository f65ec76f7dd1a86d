import SchemaTypes.Proofs.Json.Written

/-!
# What a text says

The places in the tree of a text matter to faults only. Without them a grammatical text is a tree of
scalars, lists and objects, in which a scalar or a key may still be one that cannot be held: a
number out of range, or half of a surrogate pair. This is all that decides whether a text can be
read, and as what.

## Main definitions

* `Json.bare`: an outcome without its fault
* `Json.Content`: what a grammatical text says
* `Json.Content.ofText?`: what a text says, if it is grammatical
* `Json.Content.value`: the value of a content

## Main results

* `Json.Tree.bare_value`: the value of a node is that of what it says
* `Json.Tree.content_of_written`: a node that writes a value says that value
-/

namespace SchemaTypes

namespace Json

/-! ### Outcomes without faults -/

/-- An outcome of which only the success matters. -/
def bare {ε α : Type} (outcome : Except ε α) : Except Unit α :=
  outcome.mapError fun _ => ()

section Bare

variable {ε α β : Type} {outcome : Except ε α}

@[simp] theorem bare_ok (read : α) : bare (.ok read : Except ε α) = .ok read := rfl

@[simp] theorem bare_error (fault : ε) : bare (.error fault : Except ε α) = .error () := rfl

theorem bare_eq_ok {read : α} : bare outcome = .ok read ↔ outcome = .ok read := by
  cases outcome <;> simp

theorem bare_bind (outcome : Except ε α) (next : α → Except ε β) :
    bare (outcome >>= next) = bare outcome >>= fun read => bare (next read) := by
  cases outcome <;> rfl

theorem bare_map (outcome : Except ε α) (f : α → β) :
    bare (outcome.map f) = (bare outcome).map f := by
  cases outcome <;> rfl

/-- A reading that goes on without fail. -/
theorem bare_bind_ok (outcome : Except ε α) (f : α → β) :
    bare (outcome >>= fun read => .ok (f read)) = (bare outcome).map f := by
  cases outcome <;> rfl

theorem bare_mapM {κ : Type} (read : κ → Except ε α) (parts : List κ) :
    bare (parts.mapM read) = parts.mapM fun part => bare (read part) := by
  induction parts with
  | nil => rfl
  | cons part rest ih =>
    rw [List.mapM_cons, List.mapM_cons, bare_bind]
    congr 1
    funext first
    rw [bare_bind, ih]
    rfl

end Bare

/-- Enters a list or an object, where `room` more levels may be entered. -/
def enter {α : Type} (room : Nat) (body : Except Unit α) : Except Unit α :=
  if room = 0 then .error () else body

theorem bare_inside {α : Type} (room start : Nat) (body : Except Fault α) :
    bare (inside room start body) = enter room (bare body) := by
  rw [inside, enter]
  split <;> rfl

theorem enter_eq_ok {α : Type} {room : Nat} {body : Except Unit α} {result : α} :
    enter room body = .ok result ↔ room ≠ 0 ∧ body = .ok result := by
  rw [enter]
  split
  · next hroom => exact ⟨fun h => (nomatch h), fun h => absurd hroom h.1⟩
  · next hroom => exact ⟨fun h => ⟨hroom, h⟩, fun h => h.2⟩

/-! ### Contents -/

/-- What a grammatical text says. A scalar or a key that cannot be held is an error. -/
inductive Content
  | plain (reading : Except Unit Plain)
  | text (reading : Except Unit String)
  | list (items : List Content)
  | object (entries : List (Except Unit String × Content))

namespace Content

mutual

/-- The value of a content, where `room` more levels may be entered. -/
def value (room : Nat) : Content → Except Unit Value
  | plain reading => reading.map Plain.value
  | text reading => reading.map .text
  | list items => enter room ((values (room - 1) items).map .array)
  | object entries =>
    enter room ((valueEntries (room - 1) entries).map fun read => .object (Entries.collect read))

/-- The values of items in order. -/
def values (room : Nat) : List Content → Except Unit (List Value)
  | [] => .ok []
  | item :: rest => do
    let first ← value room item
    let others ← values room rest
    .ok (first :: others)

/-- The keys and values of entries in order. -/
def valueEntries (room : Nat) :
    List (Except Unit String × Content) → Except Unit (List (String × Value))
  | [] => .ok []
  | (key, item) :: rest => do
    let name ← key
    let first ← value room item
    let others ← valueEntries room rest
    .ok ((name, first) :: others)

end

/-- Whether a content is `null`. -/
def isNull : Content → Bool
  | plain (.ok .null) => true
  | _ => false

mutual

/-- A value as a content. -/
def ofValue : Value → Content
  | .null => plain (.ok .null)
  | .boolean value => plain (.ok (.boolean value))
  | .number value => plain (.ok (.number value))
  | .text value => text (.ok value)
  | .array items => list (ofValues items)
  | .object entries => object (ofEntries entries)

/-- Values as contents. -/
def ofValues : List Value → List Content
  | [] => []
  | item :: rest => ofValue item :: ofValues rest

/-- Keyed values as keyed contents. -/
def ofEntries : List (String × Value) → List (Except Unit String × Content)
  | [] => []
  | (key, value) :: rest => (.ok key, ofValue value) :: ofEntries rest

end

theorem ofValue_plain (scalar : Plain) : ofValue scalar.value = plain (.ok scalar) := by
  cases scalar <;> rfl

theorem ofValues_eq (items : List Value) : ofValues items = items.map ofValue := by
  induction items with
  | nil => rfl
  | cons item rest ih => rw [ofValues, ih, List.map_cons]

theorem ofEntries_eq (entries : List (String × Value)) :
    ofEntries entries = entries.map fun entry => (.ok entry.1, ofValue entry.2) := by
  induction entries with
  | nil => rfl
  | cons entry rest ih => rw [ofEntries, ih, List.map_cons]

theorem ofValues_append (first rest : List Value) :
    ofValues (first ++ rest) = ofValues first ++ ofValues rest := by
  rw [ofValues_eq, ofValues_eq, ofValues_eq, List.map_append]

theorem ofEntries_append (first rest : List (String × Value)) :
    ofEntries (first ++ rest) = ofEntries first ++ ofEntries rest := by
  rw [ofEntries_eq, ofEntries_eq, ofEntries_eq, List.map_append]

end Content

/-! ### The content of a tree -/

namespace Tree

mutual

/-- What a node says. It matters if the node is grammatical. -/
def content : Tree → Content
  | absent _ => .plain (.error ())
  | plain reading _ _ _ => .plain (bare reading)
  | text reading _ _ _ => .text (bare reading)
  | list _ items _ => .list (contents items)
  | object _ entries _ => .object (contentEntries entries)

/-- What items say. -/
def contents : List Tree → List Content
  | [] => []
  | item :: rest => content item :: contents rest

/-- What entries say. -/
def contentEntries : List (Key × Tree) → List (Except Unit String × Content)
  | [] => []
  | (key, tree) :: rest => (bare key.reading, content tree) :: contentEntries rest

end

theorem contents_eq (items : List Tree) : contents items = items.map content := by
  induction items with
  | nil => rfl
  | cons item rest ih => rw [contents, ih, List.map_cons]

theorem contentEntries_eq (entries : List (Key × Tree)) :
    contentEntries entries = entries.map fun entry => (bare entry.1.reading, entry.2.content) := by
  induction entries with
  | nil => rfl
  | cons entry rest ih => rw [contentEntries, ih, List.map_cons]

theorem isNull_content (tree : Tree) : tree.content.isNull = tree.isNull := by
  cases tree with
  | plain reading checking start stop =>
    obtain _ | ⟨_ | _ | _⟩ := reading <;> rfl
  | _ => rfl

/-! ### Grammatical nodes -/

/-- A node that is grammatical can be skipped. -/
abbrev IsGrammatical (tree : Tree) : Prop :=
  tree.check = .ok ()

theorem IsGrammatical.list {start : Nat} {items : List Tree} {ending : ListEnd}
    (h : (Tree.list start items ending).IsGrammatical) :
    checkItems items = .ok () ∧ ∃ stop, ending = .closed stop := by
  obtain ⟨_, hitems, hending⟩ := bind_eq_ok.mp h
  cases ending with
  | closed stop => exact ⟨hitems, stop, rfl⟩
  | _ => cases hending

theorem IsGrammatical.object {start : Nat} {entries : List (Key × Tree)} {ending : ObjectEnd}
    (h : (Tree.object start entries ending).IsGrammatical) :
    checkEntries entries = .ok () ∧ ∃ stop, ending = .closed stop := by
  obtain ⟨_, hentries, hending⟩ := bind_eq_ok.mp h
  cases ending with
  | closed stop => exact ⟨hentries, stop, rfl⟩
  | unclosed next => cases hending
  | dangling next => cases hending
  | keyOnly key =>
    obtain ⟨_, -, hending⟩ := bind_eq_ok.mp hending
    cases hending

theorem checkItems_cons {item : Tree} {rest : List Tree} (h : checkItems (item :: rest) = .ok ()) :
    item.IsGrammatical ∧ checkItems rest = .ok () := by
  obtain ⟨_, hitem, hrest⟩ := bind_eq_ok.mp h
  exact ⟨hitem, hrest⟩

theorem checkEntries_cons {key : Key} {tree : Tree} {rest : List (Key × Tree)}
    (h : checkEntries ((key, tree) :: rest) = .ok ()) :
    tree.IsGrammatical ∧ checkEntries rest = .ok () := by
  obtain ⟨_, -, h⟩ := bind_eq_ok.mp h
  obtain ⟨_, htree, hrest⟩ := bind_eq_ok.mp h
  exact ⟨htree, hrest⟩

mutual

/-- **The value of a node** is the value of what it says. -/
theorem bare_value (room : Nat) :
    ∀ {tree : Tree}, tree.IsGrammatical → bare (tree.value room) = tree.content.value room
  | .absent next, h => by cases h
  | .plain reading checking start stop, _ => bare_map reading Plain.value
  | .text reading checking start stop, _ => bare_map reading Value.text
  | .list start items ending, h => by
    obtain ⟨hitems, stop, rfl⟩ := h.list
    rw [Tree.value, bare_inside, content, Content.value, ← bare_values (room - 1) hitems]
    exact congrArg (enter room) (bare_bind_ok _ Value.array)
  | .object start entries ending, h => by
    obtain ⟨hentries, stop, rfl⟩ := h.object
    rw [Tree.value, bare_inside, content, Content.value, ← bare_valueEntries (room - 1) hentries]
    exact congrArg (enter room) (bare_bind_ok _ fun read => Value.object (Entries.collect read))

theorem bare_values (room : Nat) : ∀ {items : List Tree}, checkItems items = .ok () →
    bare (Tree.values room items) = Content.values room (contents items)
  | [], _ => rfl
  | item :: rest, h => by
    obtain ⟨hitem, hrest⟩ := checkItems_cons h
    rw [Tree.values, contents, Content.values, bare_bind, bare_value room hitem,
      ← bare_values room hrest]
    congr 1
    funext first
    rw [bare_bind]
    rfl

theorem bare_valueEntries (room : Nat) :
    ∀ {entries : List (Key × Tree)}, checkEntries entries = .ok () →
      bare (Tree.valueEntries room entries) = Content.valueEntries room (contentEntries entries)
  | [], _ => rfl
  | (key, tree) :: rest, h => by
    obtain ⟨htree, hrest⟩ := checkEntries_cons h
    rw [Tree.valueEntries, contentEntries, Content.valueEntries, bare_bind,
      ← bare_valueEntries room hrest, ← bare_value room htree]
    congr 1
    funext name
    rw [bare_bind]
    congr 1
    funext first
    rw [bare_bind]
    rfl

end

/-! ### Nodes that write a value -/

mutual

/-- What a node says that writes a value. -/
theorem content_of_written {value : Value} :
    ∀ {tree : Tree}, tree.written = some value → tree.content = .ofValue value
  | .absent next, h => by cases h
  | .plain reading checking start stop, h => by
    obtain ⟨scalar, hscalar, rfl⟩ := Option.map_eq_some_iff.mp h
    obtain rfl := toOption_eq_some.mp hscalar
    exact (Content.ofValue_plain scalar).symm
  | .text reading checking start stop, h => by
    obtain ⟨read, hread, rfl⟩ := Option.map_eq_some_iff.mp h
    obtain rfl := toOption_eq_some.mp hread
    rfl
  | .list start items ending, h => by
    cases ending with
    | closed stop =>
      obtain ⟨values, hvalues, rfl⟩ := Option.map_eq_some_iff.mp h
      rw [content, Content.ofValue, contents_of_writtenItems hvalues]
    | _ => cases h
  | .object start entries ending, h => by
    cases ending with
    | closed stop =>
      obtain ⟨values, hvalues, rfl⟩ := Option.map_eq_some_iff.mp h
      rw [content, Content.ofValue, contentEntries_of_writtenEntries hvalues]
    | _ => cases h

theorem contents_of_writtenItems {values : List Value} :
    ∀ {items : List Tree}, writtenItems items = some values →
      contents items = Content.ofValues values
  | [], h => by
    obtain rfl := Option.some.inj h
    rfl
  | item :: rest, h => by
    obtain ⟨first, hfirst, h⟩ := Option.bind_eq_some_iff.mp h
    obtain ⟨others, hothers, h⟩ := Option.bind_eq_some_iff.mp h
    rw [← Option.some.inj h, contents, Content.ofValues, content_of_written hfirst,
      contents_of_writtenItems hothers]

theorem contentEntries_of_writtenEntries {values : List (String × Value)} :
    ∀ {entries : List (Key × Tree)}, writtenEntries entries = some values →
      contentEntries entries = Content.ofEntries values
  | [], h => by
    obtain rfl := Option.some.inj h
    rfl
  | (key, tree) :: rest, h => by
    obtain ⟨name, hname, h⟩ := Option.bind_eq_some_iff.mp h
    obtain ⟨first, hfirst, h⟩ := Option.bind_eq_some_iff.mp h
    obtain ⟨others, hothers, h⟩ := Option.bind_eq_some_iff.mp h
    rw [← Option.some.inj h, contentEntries, Content.ofEntries, toOption_eq_some.mp hname,
      content_of_written hfirst, contentEntries_of_writtenEntries hothers]
    rfl

end

/-- Two nodes that write one value read alike. -/
theorem Writes.value_eq {tree other : Tree} {written value : Value} (h : tree.Writes written)
    (hother : other.Writes written) {room : Nat} (hvalue : tree.value room = .ok value) :
    other.value room = .ok value := by
  rw [← bare_eq_ok, bare_value room hother.2, content_of_written hother.1,
    ← content_of_written h.1, ← bare_value room h.2, hvalue]
  rfl

end Tree

/-! ### The content of a text -/

/-- What a text says, if it is grammatical. -/
def Content.ofText? (text : List Char) : Option Content :=
  let document := TextTree.ofText text
  if document.next.sight = .nothing ∧ document.root.check.isOk then some document.root.content
  else none

/-- What a text says is what its tree says. -/
theorem Content.ofText?_eq_some {text : List Char} {content : Content}
    (h : ofText? text = some content) :
    (TextTree.ofText text).next.sight = .nothing ∧ (TextTree.ofText text).root.IsGrammatical ∧
      (TextTree.ofText text).root.content = content := by
  rw [ofText?] at h
  split at h
  · next hgrammatical =>
    refine ⟨hgrammatical.1, ?_, Option.some.inj h⟩
    have hcheck := hgrammatical.2
    cases houtcome : (TextTree.ofText text).root.check with
    | ok => exact houtcome
    | error fault => rw [houtcome] at hcheck; cases hcheck
  · cases h

/-- A reading of a text whose tree ends where the text does is the reading of its root. -/
theorem TextTree.close_eq {α : Type} {document : TextTree}
    (h : document.next.sight = .nothing) (read : Except Fault α) : document.close read = read := by
  rw [close]
  cases read with
  | error fault => rfl
  | ok value => exact if_pos h

end Json

end SchemaTypes
