import SchemaTypes.Failure
import SchemaTypes.Proofs.Json.Fields
import SchemaTypes.Proofs.Json.Grammatical
import SchemaTypes.Proofs.Schema.Written
import Mathlib

/-!
# Schema objects in what a text says

Whether a document can be read, and as what, is told by what its text says, without the places. A
schema object is a record whose clauses are read from the contents one level below. A reader that
goes through the text in place, and can notice a fault at any byte, gives the same.

## Main definitions

* `Schema.Forms.ofContent`: a content as a source
* `Schema.DefinitionSources.ofContent`: what a document says in the places that can hold definitions

## Main results

* `Schema.Part.bare_ofTree`: a node and what it says
* `Schema.Document.ofText_iff_ofContent`: a document and what its text says
* `Schema.Document.exists_content`: the text of every document says something
-/

namespace SchemaTypes

namespace Json

namespace Content

/-- The text that a content is. -/
def asText : Content → Except Unit String
  | text reading => reading
  | _ => .error ()

/-- The truth value that a content is. -/
def asTruth : Content → Except Unit Bool
  | plain (.ok (.boolean value)) => .ok value
  | _ => .error ()

/-- The items of a list. -/
def asList : Content → Except Unit (List Content)
  | list items => .ok items
  | _ => .error ()

/-- The entries of an object. -/
def asObject : Content → Except Unit (List (Except Unit String × Content))
  | object entries => .ok entries
  | _ => .error ()

/-- The key and the item of an entry. -/
def keyed {α : Type} (read : Content → Except Unit α) (entry : Except Unit String × Content) :
    Except Unit (String × α) := do
  let name ← entry.1
  let item ← read entry.2
  .ok (name, item)

/-- A record with fields among `all`, where `room` more levels may be entered. -/
def record {φ σ : Type} [DecidableEq φ] (all : List φ) (ofKey? : String → Option φ)
    (fill : σ → φ → Content → Except Unit σ) (empty : σ) (room : Nat) (content : Content) :
    Except Unit σ :=
  enter room (content.fields all ofKey? >>= fillAll fill empty)

end Content

end Json

namespace Schema

open Json

/-! ### Contents as sources -/

namespace Forms

/-- A source without its faults. -/
def bare {ε : Type} (forms : Forms ε) : Forms Unit where
  isNull := forms.isNull
  value := Json.bare forms.value
  text := Json.bare forms.text
  truth := Json.bare forms.truth
  values := Json.bare forms.values
  additional := Json.bare forms.additional
  schema := Json.bare forms.schema
  schemas := Json.bare forms.schemas
  schemaMap := Json.bare forms.schemaMap

/-- A content as a source that holds no schema objects. -/
def shallow (room : Nat) (content : Content) : Forms Unit where
  isNull := content.isNull
  value := content.value room
  text := content.asText
  truth := content.asTruth
  values := enter room (content.asList >>= Content.values (room - 1))
  additional := (content.value room).map Additional.ofValue
  schema := .error ()
  schemas := .error ()
  schemaMap := .error ()

/-- A content as a source, where `room` more levels may be entered. -/
def ofContent : Nat → Content → Forms Unit
  | 0, content => shallow 0 content
  | room + 1, content =>
    { shallow (room + 1) content with
      schema := content.fields Clause.all Clause.ofKey? >>=
        fillAll (fun clauses clause part => clauses.fill clause (ofContent room part)) .empty
      schemas := content.asList >>= fun items => items.mapM fun item => (ofContent room item).schema
      schemaMap := content.asObject >>= fun entries =>
        (entries.mapM (Content.keyed fun part => (ofContent room part).schema)).map
          Entries.collect }

theorem bare_optional {ε α : Type} (forms : Forms ε) (form : Except ε α) :
    Json.bare (forms.optional form) = forms.bare.optional (Json.bare form) := by
  rw [optional, optional, bare]
  split
  · rfl
  · exact bare_map form some

end Forms

theorem Clauses.bare_fill {ε : Type} (clauses : Clauses) (clause : Clause) (source : Forms ε) :
    bare (clauses.fill clause source) = clauses.fill clause source.bare := by
  cases clause <;> rw [fill, fill, bare_map, Forms.bare_optional] <;> rfl

theorem except_map_id {ε α : Type} (outcome : Except ε α) : outcome.map id = outcome := by
  cases outcome <;> rfl

theorem mapM_congr {κ α : Type} {read other : κ → Except Unit α} {parts : List κ}
    (h : ∀ part ∈ parts, read part = other part) : parts.mapM read = parts.mapM other := by
  induction parts with
  | nil => rfl
  | cons part rest ih =>
    obtain ⟨hpart, hrest⟩ := List.forall_mem_cons.mp h
    rw [List.mapM_cons, List.mapM_cons, hpart, ih hrest]

/-! ### Nodes -/

/-- A part fills clauses with what its node says, as read in every form. -/
structure Part.Says (room : Nat) (part : Part) : Prop where
  check : part.tree.IsGrammatical
  forms : part.forms.bare = .ofContent room part.tree.content

theorem Part.Says.filledBy {room : Nat} {part : Part} (h : part.Says room) :
    schemaRecord.FilledBy
      (fun clauses clause part => clauses.fill clause (.ofContent room part)) part where
  check := h.check
  fill clauses clause := (clauses.bare_fill clause part.forms).trans (h.forms ▸ rfl)

/-- The map of schemas that a part may be. -/
theorem Part.Says.optional_schemaMap {room : Nat} {part : Part} (h : part.Says room) :
    bare (part.forms.optional part.forms.schemaMap) =
      (Forms.ofContent room part.tree.content).optional
        (Forms.ofContent room part.tree.content).schemaMap := by
  rw [Forms.bare_optional, ← h.forms]
  rfl

namespace Part

variable {room : Nat}

/-- What only the form of any value accepts. -/
theorem bare_scalar {tree : Tree} (h : tree.IsGrammatical) (room : Nat) :
    (scalar room tree).forms.bare =
      { isNull := tree.content.isNull
        value := tree.content.value room
        text := .error ()
        truth := .error ()
        values := .error ()
        additional := (tree.content.value room).map Additional.ofValue
        schema := .error ()
        schemas := .error ()
        schemaMap := .error () } := by
  rw [Tree.isNull_content, ← Tree.bare_value room h, ← bare_map]
  rfl

theorem contents_ofItems (room : Nat) (items : List Tree) :
    (ofItems room items).map (fun part => part.tree.content) = Tree.contents items := by
  rw [ofItems_eq, List.map_map, Tree.contents_eq]
  exact List.map_congr_left fun item _ => congrArg Tree.content (tree_ofTree room item)

theorem contents_ofEntries (room : Nat) (entries : List (Key × Tree)) :
    (ofEntries room entries).map (fun entry => (bare entry.1.reading, entry.2.tree.content)) =
      Tree.contentEntries entries := by
  rw [ofEntries_eq, List.map_map, Tree.contentEntries_eq]
  exact List.map_congr_left fun entry _ =>
    congrArg (Prod.mk (bare entry.1.reading)) (congrArg Tree.content (tree_ofTree room entry.2))

theorem bare_list {items : List Tree} (hparts : ∀ part ∈ ofItems room items, part.Says room)
    (start stop : Nat) (hlist : (Tree.list start items (.closed stop)).IsGrammatical) :
    (ofTree (room + 1) (.list start items (.closed stop))).forms.bare =
      .ofContent (room + 1) (Tree.list start items (.closed stop)).content := by
  have hvalues : bare (Tree.values room items) = Content.values room (Tree.contents items) :=
    Tree.bare_values room hlist.list.1
  have hschema : bare (schemaRecord.readList (.closed stop) (ofItems room items)) =
      (Content.list (Tree.contents items)).fields Clause.all Clause.ofKey? >>=
        fillAll (fun clauses clause part => clauses.fill clause (.ofContent room part)) .empty := by
    rw [← contents_ofItems room items]
    exact Record.bare_readList (fun part hpart => (hparts part hpart).filledBy) stop (by decide)
  have hschemas : bare (schemas (.closed stop) (ofItems room items)) =
      (Tree.contents items).mapM fun item => (Forms.ofContent room item).schema := by
    have hbare : bare (schemas (.closed stop) (ofItems room items)) =
        (bare ((ofItems room items).mapM fun part => part.forms.schema)).map id :=
      bare_bind_ok _ id
    rw [hbare, except_map_id, bare_mapM, ← contents_ofItems room items, List.mapM_map]
    exact mapM_congr fun part hpart => congrArg Forms.schema (hparts part hpart).forms
  have hread : (ofTree (room + 1) (.list start items (.closed stop))).forms.bare =
      { (scalar (room + 1) (.list start items (.closed stop))).forms.bare with
        values := bare (Tree.values room items >>= fun read => .ok (id read))
        schema := bare (schemaRecord.readList (.closed stop) (ofItems room items))
        schemas := bare (schemas (.closed stop) (ofItems room items)) } := rfl
  rw [hread, bare_scalar hlist, bare_bind_ok, hvalues, except_map_id, hschema, hschemas]
  rfl

theorem bare_object {entries : List (Key × Tree)}
    (hparts : ∀ entry ∈ ofEntries room entries, entry.2.Says room) (start stop : Nat)
    (hobject : (Tree.object start entries (.closed stop)).IsGrammatical) :
    (ofTree (room + 1) (.object start entries (.closed stop))).forms.bare =
      .ofContent (room + 1) (Tree.object start entries (.closed stop)).content := by
  have hschema : bare (schemaRecord.readObject (.closed stop) (ofEntries room entries)) =
      Content.fieldsOf Clause.ofKey? (Tree.contentEntries entries) >>=
        fillAll (fun clauses clause part => clauses.fill clause (.ofContent room part)) .empty := by
    rw [← contents_ofEntries room entries]
    exact Record.bare_readObject (fun entry hentry => (hparts entry hentry).filledBy) stop
  have hmap : bare (schemaMap (.closed stop) (ofEntries room entries)) =
      ((Tree.contentEntries entries).mapM
        (Content.keyed fun part => (Forms.ofContent room part).schema)).map Entries.collect := by
    rw [← contents_ofEntries room entries, List.mapM_map]
    refine (bare_bind_ok _ Entries.collect).trans (congrArg _ ?_)
    rw [bare_mapM]
    refine mapM_congr fun entry hentry => ?_
    show _ = Content.keyed _ (bare entry.1.reading, entry.2.tree.content)
    rw [Content.keyed, ← (hparts entry hentry).forms, bare_bind]
    congr 1
    funext name
    rw [bare_bind]
    rfl
  have hread : (ofTree (room + 1) (.object start entries (.closed stop))).forms.bare =
      { (scalar (room + 1) (.object start entries (.closed stop))).forms.bare with
        schema := bare (schemaRecord.readObject (.closed stop) (ofEntries room entries))
        schemaMap := bare (schemaMap (.closed stop) (ofEntries room entries)) } := rfl
  rw [hread, bare_scalar hobject, hschema, hmap]
  rfl

/-- A scalar holds no schema objects, wherever it stands. -/
theorem bare_plain {reading : Except Fault Plain} {checking : Except Fault Unit} {start stop : Nat}
    (h : (Tree.plain reading checking start stop).IsGrammatical) (room : Nat) :
    (ofTree room (.plain reading checking start stop)).forms.bare =
      .ofContent room (Tree.plain reading checking start stop).content := by
  have hread : (ofTree room (.plain reading checking start stop)).forms.bare =
      { (scalar room (.plain reading checking start stop)).forms.bare with
        truth := (Content.plain (bare reading)).asTruth } := by
    obtain _ | ⟨_ | _ | _⟩ := reading <;> rfl
  rw [hread, bare_scalar h]
  cases room <;> rfl

theorem bare_text {reading : Except Fault String} {checking : Except Fault Unit} {start stop : Nat}
    (h : (Tree.text reading checking start stop).IsGrammatical) (room : Nat) :
    (ofTree room (.text reading checking start stop)).forms.bare =
      .ofContent room (Tree.text reading checking start stop).content := by
  have hread : (ofTree room (.text reading checking start stop)).forms.bare =
      { (scalar room (.text reading checking start stop)).forms.bare with text := bare reading } :=
    rfl
  rw [hread, bare_scalar h]
  cases room <;> rfl

mutual

/-- **A node and what it says** are the same source, in every form. -/
theorem bare_ofTree : ∀ (room : Nat) {tree : Tree}, tree.IsGrammatical →
    (ofTree room tree).forms.bare = .ofContent room tree.content
  | _, .absent next, h => by cases h
  | room, .plain reading checking start stop, h => bare_plain h room
  | room, .text reading checking start stop, h => bare_text h room
  | room, .list start items ending, h => by
    obtain ⟨hitems, stop, rfl⟩ := h.list
    cases room with
    | zero =>
      have hread : (ofTree 0 (.list start items (.closed stop))).forms.bare =
          (scalar 0 (.list start items (.closed stop))).forms.bare := rfl
      rw [hread, bare_scalar h]
      rfl
    | succ room => exact bare_list (says_ofItems room hitems) start stop h
  | room, .object start entries ending, h => by
    obtain ⟨hentries, stop, rfl⟩ := h.object
    cases room with
    | zero =>
      have hread : (ofTree 0 (.object start entries (.closed stop))).forms.bare =
          (scalar 0 (.object start entries (.closed stop))).forms.bare := rfl
      rw [hread, bare_scalar h]
      rfl
    | succ room => exact bare_object (says_ofEntries room hentries) start stop h

theorem says_ofItems (room : Nat) : ∀ {items : List Tree}, Tree.checkItems items = .ok () →
    ∀ part ∈ ofItems room items, part.Says room
  | [], _ => List.forall_mem_nil _
  | item :: rest, h => by
    obtain ⟨hitem, hrest⟩ := Tree.checkItems_cons h
    refine List.forall_mem_cons.mpr ⟨?_, says_ofItems room hrest⟩
    exact ⟨(tree_ofTree room item).symm ▸ hitem, by rw [tree_ofTree, bare_ofTree room hitem]⟩

theorem says_ofEntries (room : Nat) : ∀ {entries : List (Key × Tree)},
    Tree.checkEntries entries = .ok () → ∀ entry ∈ ofEntries room entries, entry.2.Says room
  | [], _ => List.forall_mem_nil _
  | (key, tree) :: rest, h => by
    obtain ⟨htree, hrest⟩ := Tree.checkEntries_cons h
    refine List.forall_mem_cons.mpr ⟨?_, says_ofEntries room hrest⟩
    exact ⟨(tree_ofTree room tree).symm ▸ htree, by rw [tree_ofTree, bare_ofTree room htree]⟩

end

end Part

/-! ### Documents -/

section Record

variable {φ σ : Type} [DecidableEq φ] {record : Record φ σ Part}

/-- **A record with parts** is told by what its node says. -/
theorem bare_readRecord {fill : σ → φ → Content → Except Unit σ} {room : Nat} {tree : Tree}
    (h : tree.IsGrammatical) (htree : record.tree = Part.tree) (hfields : record.fields.Nodup)
    (hfill : ∀ part : Part, part.Says (room - 1) → ∀ sofar field,
      bare (record.fill sofar field part) = fill sofar field part.tree.content) :
    bare (readRecord record room tree) =
      tree.content.record record.fields record.ofKey? fill record.empty room := by
  have hfilled : ∀ part : Part, part.Says (room - 1) → record.FilledBy fill part :=
    fun part hpart => ⟨htree ▸ hpart.check, htree ▸ hfill part hpart⟩
  rw [Content.record]
  cases tree with
  | absent next => cases h
  | plain reading checking start stop => rw [enter]; split <;> rfl
  | text reading checking start stop => rw [enter]; split <;> rfl
  | list start items ending =>
    obtain ⟨hitems, stop, rfl⟩ := h.list
    have hparts := Part.says_ofItems (room - 1) hitems
    rw [readRecord, bare_inside,
      Record.bare_readList (fun part hpart => hfilled part (hparts part hpart)) stop hfields,
      htree, Part.contents_ofItems]
    rfl
  | object start entries ending =>
    obtain ⟨hentries, stop, rfl⟩ := h.object
    have hparts := Part.says_ofEntries (room - 1) hentries
    rw [readRecord, bare_inside,
      Record.bare_readObject (fun entry hentry => hfilled entry.2 (hparts entry hentry)) stop,
      Record.contents, htree, Part.contents_ofEntries]
    rfl

/-- What is read as a record is a list or an object that has its end. -/
theorem isWhole_of_readRecord {room : Nat} {tree : Tree} {result : σ}
    (h : readRecord record room tree = .ok result) : tree.IsWhole := by
  cases tree with
  | absent next => cases h
  | plain reading checking start stop | text reading checking start stop => trivial
  | list start items ending =>
    obtain ⟨-, h⟩ := inside_eq_ok.mp h
    obtain ⟨stop, rfl⟩ := Record.readItems_closed h
    trivial
  | object start entries ending =>
    obtain ⟨-, h⟩ := inside_eq_ok.mp h
    obtain ⟨stop, rfl⟩ := Record.readEntries_closed h
    trivial

end Record

/-- What the components of a document say, where `room` more levels may be entered. -/
def componentsOfContent (room : Nat) : Content → Except Unit (Option ClauseMap) :=
  Content.record componentRecord.fields componentRecord.ofKey?
    (fun _ _ part =>
      (Forms.ofContent (room - 1) part).optional (Forms.ofContent (room - 1) part).schemaMap)
    none room

namespace DefinitionSources

/-- What a document says with one more field. -/
def fill (room : Nat) (sources : DefinitionSources) (field : DocumentField) (part : Content) :
    Except Unit DefinitionSources :=
  let forms := Forms.ofContent room part
  match field with
  | .definitions =>
    (forms.optional forms.schemaMap).map fun x => { sources with definitions := x }
  | .components =>
    (forms.optional (componentsOfContent room part)).map fun x => { sources with components := x }

/-- What a content says as a document in the places that can hold definitions. -/
def ofContent (room : Nat) : Content → Except Unit DefinitionSources :=
  Content.record documentRecord.fields documentRecord.ofKey? (fill (room - 1)) {} room

theorem bare_components {tree : Tree} (h : tree.IsGrammatical) :
    bare (readRecord componentRecord (maxDepth - 1) tree) =
      componentsOfContent (maxDepth - 1) tree.content :=
  bare_readRecord h rfl (by decide) fun _ hpart _ _ => hpart.optional_schemaMap

/-- What a text says as a document. -/
theorem bare_ofText {text : List Char} {content : Content}
    (h : Content.ofText? text = some content) :
    bare (ofText text) = ofContent maxDepth content := by
  obtain ⟨hnext, hroot, rfl⟩ := Content.ofText?_eq_some h
  rw [ofText, TextTree.close_eq hnext]
  refine bare_readRecord hroot rfl (by decide) fun part hpart sofar field => ?_
  cases field with
  | definitions =>
    refine (bare_map (part.forms.optional part.forms.schemaMap) _).trans ?_
    rw [hpart.optional_schemaMap]
    rfl
  | components =>
    refine (bare_map (part.forms.optional _) _).trans ?_
    rw [Forms.bare_optional, hpart.forms, bare_components hpart.check]
    rfl

end DefinitionSources

/-- **A document** is made from what its text says. -/
theorem Document.ofText_iff_ofContent {text : List Char} {content : Content}
    (h : Content.ofText? text = some content) (file : String) (document : Document) :
    ofText file text = .ok document ↔
      ∃ sources definitions, DefinitionSources.ofContent maxDepth content = .ok sources ∧
        sources.chosen = some definitions ∧ document = ⟨Node.ofEntries definitions⟩ := by
  rw [ofText]
  have hbare := DefinitionSources.bare_ofText h
  cases hread : DefinitionSources.ofText text with
  | error fault =>
    rw [hread, bare_error] at hbare
    constructor
    · intro h
      cases h
    · rintro ⟨_, _, hsources, -⟩
      cases hbare.trans hsources
  | ok sources =>
    rw [hread, bare_ok] at hbare
    dsimp only
    rw [← hbare]
    cases hchosen : sources.chosen with
    | none =>
      constructor
      · intro h
        cases h
      · rintro ⟨other, definitions, hsources, hdefinitions, -⟩
        obtain rfl := Except.ok.inj hsources
        rw [hchosen] at hdefinitions
        cases hdefinitions
    | some found =>
      constructor
      · intro hdocument
        exact ⟨sources, found, rfl, hchosen, (Except.ok.inj hdocument).symm⟩
      · rintro ⟨other, definitions, hsources, hdefinitions, rfl⟩
        obtain rfl := Except.ok.inj hsources
        rw [hchosen] at hdefinitions
        obtain rfl := Option.some.inj hdefinitions
        rfl

/-- **The text of a document** says something. -/
theorem Document.exists_content {file : String} {text : List Char} {document : Document}
    (h : ofText file text = .ok document) : ∃ content, Content.ofText? text = some content := by
  have hread : ∃ sources, DefinitionSources.ofText text = .ok sources := by
    rw [ofText] at h
    cases hsources : DefinitionSources.ofText text with
    | ok sources => exact ⟨sources, rfl⟩
    | error fault => rw [hsources] at h; cases h
  obtain ⟨sources, hsources⟩ := hread
  obtain ⟨read, hread, hclosed⟩ := bind_eq_ok.mp hsources
  have hnext : (TextTree.ofText text).next.sight = .nothing := by
    split at hclosed
    · next hnext => exact hnext
    · cases hclosed
  exact Content.exists_ofText? hnext (isWhole_of_readRecord hread)

end Schema

end SchemaTypes
