import SchemaTypes.Proofs.Schema.Places
import Mathlib

/-!
# What a document shows of its text

Every node of a document stands for a schema object of its text. A map of properties shows each
property that the text gives it, in the order of the text, with the node of what stands there. The
same is true of the definitions, of the parts of a composition and of the items of an array.

Additional properties are shown in the order of the text as well. Each of them is accepted or
refused on its own: the ones that are shown are those whose value is a schema object if it is read
by itself, with the node that it has by itself.

## Main definitions

* `Json.Content.said?`: what a record says in a field
* `Schema.Node.ofValue?`: the node of a value that is a schema object
* `Schema.Shows`: a schema object of a text and the node that stands for it
* `Schema.Document.Shows`: a text and its document

## Main results

* `Schema.shows_of_schema`: a schema object that was read
* `Schema.Document.shows_ofText`: a document that was read
-/

namespace SchemaTypes

open Json

/-! ### Entries and items in order -/

namespace Entries

variable {α β : Type} {r : α → β → Prop}

theorem forall₂_put {pairs : List (String × α)} {entries : List (String × β)} {key : String}
    {value : α} {shown : β} (h : r value shown)
    (hentries : List.Forall₂ (SameKey r) pairs entries) :
    List.Forall₂ (SameKey r) (put key value pairs) (put key shown entries) := by
  induction hentries with
  | nil => exact .cons ⟨rfl, h⟩ .nil
  | @cons pair entry pairs entries hfirst hrest ih =>
    obtain ⟨name, item⟩ := pair
    obtain ⟨name', x⟩ := entry
    obtain ⟨rfl, hitem⟩ := hfirst
    rw [put, put]
    split
    · exact .cons ⟨rfl, h⟩ hrest
    · exact .cons ⟨rfl, hitem⟩ ih

/-- **Collected entries** are in the order of the entries. -/
theorem forall₂_collect {pairs : List (String × α)} {entries : List (String × β)}
    (h : List.Forall₂ (SameKey r) pairs entries) :
    List.Forall₂ (SameKey r) (collect pairs) (collect entries) := by
  have hfold : ∀ (before : List (String × α)) (shown : List (String × β)),
      List.Forall₂ (SameKey r) before shown → List.Forall₂ (SameKey r)
        (pairs.foldl (fun entries pair => put pair.1 pair.2 entries) before)
        (entries.foldl (fun entries pair => put pair.1 pair.2 entries) shown) := by
    induction h with
    | nil => exact fun _ _ hbefore => hbefore
    | @cons pair entry _ _ hfirst hrest ih =>
      intro before shown hbefore
      rw [List.foldl_cons, List.foldl_cons, hfirst.key]
      exact ih _ _ (forall₂_put hfirst.item hbefore)
  exact hfold [] [] .nil

end Entries

namespace Json

namespace Content

/-- What a record says in a field, unless the field is missing or `null`. -/
def said? {φ : Type} [DecidableEq φ] (all : List φ) (ofKey? : String → Option φ) (field : φ)
    (content : Content) : Option Content :=
  match content.fields all ofKey? with
  | .ok fields =>
    ((fields.find? fun found => found.1 = field).map Prod.snd).filter fun part => !part.isNull
  | .error _ => none

/-- An object has the entries of a list, in order. A key that it repeats counts once, with the last
of its values. -/
def HasEntries {α : Type} (r : Content → α → Prop) (content : Content)
    (entries : List (String × α)) : Prop :=
  ∃ pairs : List (String × Content),
    content = .object (pairs.map fun pair => (.ok pair.1, pair.2)) ∧
    List.Forall₂ (SameKey r) (Entries.collect pairs) entries

/-- A list has the items of a list, in order. -/
def HasItems {α : Type} (r : Content → α → Prop) (content : Content) (items : List α) : Prop :=
  ∃ parts, content = .list parts ∧ List.Forall₂ r parts items

section Has

variable {α β : Type} {r : Content → α → Prop} {content : Content}

theorem HasEntries.map {s : Content → β → Prop} {f : α → β} {entries : List (String × α)}
    (h : content.HasEntries r entries) (hmap : ∀ part x, r part x → s part (f x)) :
    content.HasEntries s (entries.map fun entry => (entry.1, f entry.2)) := by
  obtain ⟨pairs, rfl, h⟩ := h
  refine ⟨pairs, rfl, List.forall₂_map_right_iff.mpr (h.imp fun pair entry hentry => ?_)⟩
  exact ⟨hentry.key, hmap _ _ hentry.item⟩

theorem HasItems.map {s : Content → β → Prop} {f : α → β} {items : List α}
    (h : content.HasItems r items) (hmap : ∀ part x, r part x → s part (f x)) :
    content.HasItems s (items.map f) := by
  obtain ⟨parts, rfl, h⟩ := h
  exact ⟨parts, rfl, List.forall₂_map_right_iff.mpr (h.imp fun part x => hmap part x)⟩

/-- What a `mapM` reads, item by item. -/
theorem forall₂_of_mapM {κ : Type} {read : κ → Except Unit α} {parts : List κ} {items : List α}
    (h : parts.mapM read = .ok items) :
    List.Forall₂ (fun part x => read part = .ok x) parts items := by
  induction parts generalizing items with
  | nil =>
    obtain rfl := Except.ok.inj h
    exact .nil
  | cons part rest ih =>
    rw [List.mapM_cons] at h
    obtain ⟨first, hfirst, h⟩ := bind_eq_ok.mp h
    obtain ⟨others, hothers, h⟩ := bind_eq_ok.mp h
    obtain rfl := Except.ok.inj h
    exact .cons hfirst (ih hothers)

theorem mapM_eq_ok_iff {κ : Type} {read : κ → Except Unit α} {parts : List κ} {items : List α} :
    parts.mapM read = .ok items ↔ List.Forall₂ (fun part x => read part = .ok x) parts items := by
  refine ⟨forall₂_of_mapM, fun h => ?_⟩
  induction h with
  | nil => rfl
  | cons hfirst _ ih =>
    rw [List.mapM_cons, hfirst, ih]
    rfl

theorem exists_pairs {read : Content → Except Unit α}
    {entries : List (Except Unit String × Content)} {found : List (String × α)}
    (h : List.Forall₂ (fun entry x => keyed read entry = .ok x) entries found) :
    ∃ pairs : List (String × Content), entries = pairs.map (fun pair => (.ok pair.1, pair.2)) ∧
      List.Forall₂ (SameKey fun part x => read part = .ok x) pairs found := by
  induction h with
  | nil => exact ⟨[], rfl, .nil⟩
  | @cons entry first _ _ hentry _ ih =>
    obtain ⟨key, part⟩ := entry
    obtain ⟨name, rfl, hentry⟩ := bind_eq_ok.mp hentry
    obtain ⟨x, hx, hentry⟩ := bind_eq_ok.mp hentry
    obtain rfl := Except.ok.inj hentry
    obtain ⟨pairs, rfl, hpairs⟩ := ih
    exact ⟨(name, part) :: pairs, rfl, .cons ⟨rfl, hx⟩ hpairs⟩

/-- An object whose keys and parts can be read. -/
theorem hasEntries_of_mapM {read : Content → Except Unit α}
    {entries : List (Except Unit String × Content)} {found : List (String × α)}
    (h : entries.mapM (keyed read) = .ok found) :
    (object entries).HasEntries (fun part x => read part = .ok x) (Entries.collect found) := by
  obtain ⟨pairs, rfl, hpairs⟩ := exists_pairs (forall₂_of_mapM h)
  exact ⟨pairs, rfl, Entries.forall₂_collect hpairs⟩

end Has

/-- **What a record holds in a field** is what it says there, as it is read. -/
theorem rel_said {φ σ γ : Type} [DecidableEq φ] {all : List φ} {ofKey? : String → Option φ}
    {fill : σ → φ → Content → Except Unit σ} {field : φ} {get : σ → Option γ}
    {form : Content → Except Unit γ} {empty result : σ} {content : Content} (hcomm : Commutes fill)
    (hfill : ∀ sofar part filled, fill sofar field part = .ok filled →
      (if part.isNull then .ok none else (form part).map some) = Except.ok (get filled))
    (hget : ∀ sofar other part filled, other ≠ field → fill sofar other part = .ok filled →
      get filled = get sofar)
    (hempty : get empty = none)
    (h : content.fields all ofKey? >>= fillAll fill empty = .ok result) :
    Option.Rel (fun part x => form part = .ok x) (content.said? all ofKey? field) (get result) := by
  obtain ⟨fields, hfields, h⟩ := bind_eq_ok.mp h
  rw [said?, hfields]
  dsimp only
  cases hfind : fields.find? fun found => found.1 = field with
  | none =>
    have hmissing : field ∉ fields.map Prod.fst := by
      intro hmem
      obtain ⟨found, hfound, rfl⟩ := List.mem_map.mp hmem
      simpa using List.find?_eq_none.mp hfind found hfound
    rw [fillAll_of_notMem hget hmissing h, hempty]
    exact .none
  | some found =>
    obtain ⟨hfound, before, after, rfl, -⟩ := List.find?_eq_some_iff_append.mp hfind
    obtain ⟨other, part⟩ := found
    obtain rfl : other = field := of_decide_eq_true hfound
    rw [fillAll_split hcomm] at h
    split at h
    · cases h
    · obtain ⟨sofar, -, h⟩ := bind_eq_ok.mp h
      have hform := hfill sofar part result h
      rw [Option.map_some, Option.filter_some]
      cases hnull : part.isNull with
      | true =>
        rw [hnull] at hform
        rw [← Except.ok.inj hform]
        exact .none
      | false =>
        rw [hnull] at hform
        obtain ⟨x, hx, hget⟩ := map_eq_ok.mp hform
        rw [← hget]
        exact .some hx

end Content

end Json

namespace Schema

/-! ### Nodes and contents -/

namespace Node

/-- The node of a value that is a schema object. -/
def ofValue? (value : Value) : Option Node :=
  (Clauses.ofValue value).toOption.map ofClauses

/-- The open map that a value of `additionalProperties` stands for. The entries of an object that
are schema objects are shown, each on its own. -/
def openedByValue : Value → Option (List (String × Node))
  | .boolean true => some []
  | .object entries =>
    some (entries.filterMap fun entry => (ofValue? entry.2).map (Prod.mk entry.1))
  | _ => none

end Node

/-- What a schema object says in a clause. -/
def Clause.said? (clause : Clause) (content : Content) : Option Content :=
  content.said? Clause.all Clause.ofKey? clause

/-- A value is what a content reads as. If it is an object, it has the entries of the content in
order, and the ones that are schema objects have nodes that stand for them. -/
structure ShowsValue (shows : Content → Node → Prop) (content : Content) (value : Value) :
    Prop where
  read : ∃ room, content.value room = .ok value
  order : ∀ entries, value = .object entries →
    content.HasEntries (fun part value => ∃ room, part.value room = .ok value) entries
  nodes : ∀ entries, value = .object entries → ∀ entry ∈ entries,
    ∀ node ∈ Node.ofValue? entry.2, shows (.ofValue entry.2) node

/-- A schema object and the node that stands for it, where `shows` tells the same of the schema
objects within. -/
structure ShowsClauses (shows : Content → Node → Prop) (content : Content) (node : Node) :
    Prop where
  properties : Option.Rel (Content.HasEntries shows) (Clause.properties.said? content)
    node.properties
  items : Option.Rel shows (Clause.items.said? content) node.items
  values : node.isEnum = (Clause.values.said? content).isSome
  parts : node.isEnum = false →
    Option.Rel (Content.HasItems shows) (Clause.allOf.said? content) node.parts?
  opened : ∃ value?,
    Option.Rel (ShowsValue shows) (Clause.additionalProperties.said? content) value? ∧
    (node.isEnum = false → node.parts? = none → node.openEntries? = value?.bind Node.openedByValue)

/-- A schema object that enters no more than `levels`, and the node that stands for it. -/
def Shows : Nat → Content → Node → Prop
  | 0 => fun _ _ => False
  | levels + 1 => ShowsClauses (Shows levels)

section Clause

variable {room : Nat} {content : Content} {clauses : Clauses}

/-- What a schema object holds in a clause is what it says there. -/
theorem rel_said_clause {γ : Type} (clause : Clause) {get : Clauses → Option γ}
    {form : Forms Unit → Except Unit γ} (set : Option γ → Clauses → Clauses)
    (hfill : ∀ (clauses : Clauses) (source : Forms Unit),
      clauses.fill clause source = (source.optional (form source)).map fun x => set x clauses)
    (hset : ∀ x clauses, get (set x clauses) = x)
    (hget : ∀ clauses, get clauses = get (Clauses.copy clause clauses .empty))
    (hempty : get .empty = none)
    (h : (Forms.ofContent (room + 1) content).schema = .ok clauses) :
    Option.Rel (fun part x => form (.ofContent room part) = .ok x) (clause.said? content)
      (get clauses) := by
  refine Content.rel_said (Clauses.commutes_fill room) (fun sofar part filled hfilled => ?_)
    (fun sofar other part filled hne hfilled => ?_) hempty h
  · rw [hfill] at hfilled
    obtain ⟨found, hfound, rfl⟩ := map_eq_ok.mp hfilled
    rw [hset, ← hfound, Forms.optional, isNull_ofContent]
  · rw [Clauses.fill_eq_copy] at hfilled
    obtain ⟨read, -, rfl⟩ := map_eq_ok.mp hfilled
    rw [hget, Clauses.copy_copy_of_ne hne, ← hget]

section Said

variable (h : (Forms.ofContent (room + 1) content).schema = .ok clauses)
include h

theorem rel_said_properties :
    Option.Rel (fun part x => (Forms.ofContent room part).schemaMap = .ok x)
      (Clause.properties.said? content) clauses.properties :=
  rel_said_clause .properties (fun x clauses => { clauses with properties := x }) (fun _ _ => rfl)
    (fun _ _ => rfl) (fun _ => rfl) rfl h

theorem rel_said_items : Option.Rel (fun part x => (Forms.ofContent room part).schema = .ok x)
    (Clause.items.said? content) clauses.items :=
  rel_said_clause .items (fun x clauses => { clauses with items := x }) (fun _ _ => rfl)
    (fun _ _ => rfl) (fun _ => rfl) rfl h

theorem rel_said_values : Option.Rel (fun part x => (Forms.ofContent room part).values = .ok x)
    (Clause.values.said? content) clauses.values :=
  rel_said_clause .values (fun x clauses => { clauses with values := x }) (fun _ _ => rfl)
    (fun _ _ => rfl) (fun _ => rfl) rfl h

theorem rel_said_allOf : Option.Rel (fun part x => (Forms.ofContent room part).schemas = .ok x)
    (Clause.allOf.said? content) clauses.allOf :=
  rel_said_clause .allOf (fun x clauses => { clauses with allOf := x }) (fun _ _ => rfl)
    (fun _ _ => rfl) (fun _ => rfl) rfl h

theorem rel_said_additional :
    Option.Rel (fun part x => (Forms.ofContent room part).additional = .ok x)
      (Clause.additionalProperties.said? content) clauses.additional :=
  rel_said_clause .additionalProperties (fun x clauses => { clauses with additional := x })
    (fun _ _ => rfl) (fun _ _ => rfl) (fun _ => rfl) rfl h

end Said

/-- A map of schemas is an object of schema objects, in order. -/
theorem hasEntries_of_schemaMap {schemas : ClauseMap}
    (h : (Forms.ofContent room content).schemaMap = .ok schemas) :
    content.HasEntries (fun part clauses => (Forms.ofContent (room - 1) part).schema = .ok clauses)
      schemas := by
  cases room with
  | zero => cases h
  | succ room =>
    obtain ⟨entries, hentries, h⟩ := bind_eq_ok.mp h
    obtain ⟨found, hfound, rfl⟩ := map_eq_ok.mp h
    cases content with
    | object all =>
      obtain rfl := Except.ok.inj hentries
      exact Content.hasEntries_of_mapM hfound
    | _ => cases hentries

/-- A list of schemas is a list of schema objects, in order. -/
theorem hasItems_of_schemas {schemas : List Clauses}
    (h : (Forms.ofContent room content).schemas = .ok schemas) :
    content.HasItems (fun part clauses => (Forms.ofContent (room - 1) part).schema = .ok clauses)
      schemas := by
  cases room with
  | zero => cases h
  | succ room =>
    obtain ⟨items, hitems, h⟩ := bind_eq_ok.mp h
    cases content with
    | list all =>
      obtain rfl := Except.ok.inj hitems
      exact ⟨all, rfl, Content.forall₂_of_mapM h⟩
    | _ => cases hitems

/-- An object that is read as a value has its entries in order. -/
theorem hasEntries_of_value {entries : List (String × Value)}
    (h : content.value room = .ok (.object entries)) :
    content.HasEntries (fun part value => part.value (room - 1) = .ok value) entries := by
  cases content with
  | plain reading =>
    obtain ⟨scalar, -, h⟩ := map_eq_ok.mp h
    cases scalar <;> cases h
  | text reading =>
    obtain ⟨read, -, h⟩ := map_eq_ok.mp h
    cases h
  | list items =>
    obtain ⟨-, h⟩ := enter_eq_ok.mp h
    obtain ⟨values, -, h⟩ := map_eq_ok.mp h
    cases h
  | object all =>
    rw [Content.value_object, Content.valueEntries_eq] at h
    obtain ⟨-, h⟩ := enter_eq_ok.mp h
    obtain ⟨found, hfound, h⟩ := map_eq_ok.mp h
    obtain ⟨pairs, hpairs, rfl⟩ := map_eq_ok.mp hfound
    obtain rfl := Value.object.inj h
    exact Content.hasEntries_of_mapM hpairs

theorem rel_map_right {α β γ : Type} {r : α → β → Prop} {s : α → γ → Prop} {f : β → γ}
    {a : Option α}
    {b : Option β} (h : Option.Rel r a b) (himp : ∀ x y, r x y → s x (f y)) :
    Option.Rel s a (b.map f) := by
  cases h with
  | none => exact .none
  | some h => exact .some (himp _ _ h)

theorem isSome_eq_of_rel {α β : Type} {r : α → β → Prop} {a : Option α} {b : Option β}
    (h : Option.Rel r a b) : b.isSome = a.isSome := by
  cases h <;> rfl

end Clause

/-- What `additionalProperties` says of a value and the open map that the value stands for. -/
theorem openedByValue_eq (value : Value) :
    (Additional.ofValue value).entries?.map Node.ofEntries = Node.openedByValue value := by
  cases value with
  | boolean truth => cases truth <;> rfl
  | object entries =>
    rw [Additional.ofValue_object, Additional.entries?, Option.map_some, Node.openedByValue,
      Node.ofEntries_eq, List.map_filterMap]
    congr 2
    funext entry
    rw [Node.ofValue?]
    cases Clauses.ofValue entry.2 <;> rfl
  | _ => rfl

section Levels

variable {levels room : Nat} {content : Content}

/-- What `additionalProperties` says, if the schema objects within have nodes that stand for
them. -/
theorem showsValue_of_value {value : Value}
    (hshows : ∀ {room content clauses}, room ≤ levels →
      (Forms.ofContent room content).schema = .ok clauses →
        Shows levels content (.ofClauses clauses))
    (hroom : room ≤ levels) (h : content.value room = .ok value) :
    ShowsValue (Shows levels) content value where
  read := ⟨room, h⟩
  order := by
    rintro entries rfl
    obtain ⟨pairs, rfl, hpairs⟩ := hasEntries_of_value h
    exact ⟨pairs, rfl, hpairs.imp fun _ _ hpair => ⟨hpair.key, _, hpair.item⟩⟩
  nodes := by
    rintro entries rfl entry hentry node hnode
    obtain ⟨clauses, hclauses, rfl⟩ := Option.map_eq_some_iff.mp hnode
    obtain ⟨-, -, hheld⟩ := Value.held_object.mp (Content.held_of_value room h)
    exact hshows (Nat.le_trans (Nat.sub_le room 1) hroom)
      ((Clauses.ofValue_eq_ok (hheld entry hentry)).mp (toOption_eq_some.mp hclauses))

theorem exists_value_of_additional
    (hshows : ∀ {room content clauses}, room ≤ levels →
      (Forms.ofContent room content).schema = .ok clauses →
        Shows levels content (.ofClauses clauses))
    (hroom : room ≤ levels) {said : Option Content} {additional : Option (Additional Clauses)}
    (h : Option.Rel (fun part x => (Forms.ofContent room part).additional = .ok x) said
      additional) :
    ∃ value?, Option.Rel (ShowsValue (Shows levels)) said value? ∧
      additional = value?.map Additional.ofValue := by
  cases h with
  | none => exact ⟨none, .none, rfl⟩
  | some h =>
    rw [additional_ofContent] at h
    obtain ⟨value, hvalue, rfl⟩ := map_eq_ok.mp h
    exact ⟨some value, .some (showsValue_of_value hshows hroom hvalue), rfl⟩

/-- **A schema object that was read** has a node that stands for it. -/
theorem shows_of_schema {clauses : Clauses} (hroom : room ≤ levels)
    (h : (Forms.ofContent room content).schema = .ok clauses) :
    Shows levels content (.ofClauses clauses) := by
  induction levels generalizing room content clauses with
  | zero =>
    obtain rfl := Nat.le_zero.mp hroom
    cases h
  | succ levels ih =>
    cases room with
    | zero => cases h
    | succ room =>
      have hroom := Nat.le_of_succ_le_succ hroom
      have hless : room - 1 ≤ levels := Nat.le_trans (Nat.sub_le room 1) hroom
      have hshows : ∀ {part : Content} {schema : Clauses},
          (Forms.ofContent (room - 1) part).schema = .ok schema →
            Shows levels part (.ofClauses schema) := fun h => ih hless h
      constructor
      case properties =>
        rw [Node.properties_ofClauses]
        refine rel_map_right (rel_said_properties h) fun part schemas hschemas => ?_
        rw [Node.ofEntries_eq]
        exact (hasEntries_of_schemaMap hschemas).map fun _ _ => hshows
      case items =>
        rw [Node.items_ofClauses]
        exact rel_map_right (rel_said_items h) fun _ _ => ih hroom
      case values =>
        rw [Node.isEnum_ofClauses, isSome_eq_of_rel (rel_said_values h)]
      case parts =>
        intro henum
        rw [Node.isEnum_ofClauses] at henum
        rw [Node.parts?_ofClauses, henum, if_neg Bool.false_ne_true]
        refine rel_map_right (rel_said_allOf h) fun part schemas hschemas => ?_
        rw [Node.ofParts_eq]
        exact (hasItems_of_schemas hschemas).map fun _ _ => hshows
      case opened =>
        obtain ⟨value?, hvalue, hadditional⟩ := exists_value_of_additional ih hroom
          (rel_said_additional h)
        refine ⟨value?, hvalue, fun henum hparts => ?_⟩
        rw [Node.isEnum_ofClauses] at henum
        rw [Node.parts?_ofClauses, henum, if_neg Bool.false_ne_true,
          Option.map_eq_none_iff] at hparts
        rw [Node.openEntries?_ofClauses, henum, hparts, if_neg (by simp), Clauses.opened,
          hadditional]
        cases value? with
        | none => rfl
        | some value => exact openedByValue_eq value

end Levels

/-! ### Documents -/

namespace Document

/-- What a document says in the place that holds its definitions. -/
def said? (content : Content) : Option Content :=
  (content.said? documentRecord.fields documentRecord.ofKey? .definitions).or
    ((content.said? documentRecord.fields documentRecord.ofKey? .components).bind fun part =>
      part.said? componentRecord.fields componentRecord.ofKey? .schemas)

/-- The definitions of a document are those of its text, in order, with nodes that stand for
them. -/
def Shows (document : Document) (content : Content) : Prop :=
  ∃ part ∈ said? content, part.HasEntries (Schema.Shows maxDepth) document.definitions

/-- The definitions among the components. -/
theorem rel_said_schemas {room : Nat} {content : Content} {schemas : Option ClauseMap}
    (h : componentsOfContent room content = .ok schemas) :
    Option.Rel (fun part x => (Forms.ofContent (room - 1) part).schemaMap = .ok x)
      (content.said? componentRecord.fields componentRecord.ofKey? .schemas) schemas := by
  obtain ⟨-, h⟩ := enter_eq_ok.mp h
  show Option.Rel _ _ (id schemas)
  refine Content.rel_said (commutes_components (room - 1)) (fun sofar part filled hfilled => ?_)
    (fun _ other _ _ hne => absurd (by cases other; rfl) hne) rfl h
  rwa [Forms.optional, isNull_ofContent] at hfilled

section Sources

variable {room : Nat} {content : Content} {sources : DefinitionSources}
  (h : DefinitionSources.ofContent room content = .ok sources)
include h

theorem rel_said_definitions :
    Option.Rel (fun part x => (Forms.ofContent (room - 1) part).schemaMap = .ok x)
      (content.said? documentRecord.fields documentRecord.ofKey? .definitions)
      sources.definitions := by
  obtain ⟨-, h⟩ := enter_eq_ok.mp h
  refine Content.rel_said (DefinitionSources.commutes_fill (room - 1))
    (fun sofar part filled hfilled => ?_) (fun sofar other part filled hne hfilled => ?_) rfl h
  · obtain ⟨found, hfound, rfl⟩ := map_eq_ok.mp hfilled
    rwa [Forms.optional, isNull_ofContent] at hfound
  · cases other with
    | definitions => exact absurd rfl hne
    | components =>
      obtain ⟨found, -, rfl⟩ := map_eq_ok.mp hfilled
      rfl

theorem rel_said_components :
    Option.Rel (fun part x => componentsOfContent (room - 1) part = .ok x)
      (content.said? documentRecord.fields documentRecord.ofKey? .components)
      sources.components := by
  obtain ⟨-, h⟩ := enter_eq_ok.mp h
  refine Content.rel_said (DefinitionSources.commutes_fill (room - 1))
    (fun sofar part filled hfilled => ?_) (fun sofar other part filled hne hfilled => ?_) rfl h
  · obtain ⟨found, hfound, rfl⟩ := map_eq_ok.mp hfilled
    rwa [Forms.optional, isNull_ofContent] at hfound
  · cases other with
    | components => exact absurd rfl hne
    | definitions =>
      obtain ⟨found, -, rfl⟩ := map_eq_ok.mp hfilled
      rfl

/-- The definitions of a document are those of the place that holds them. -/
theorem rel_said_chosen :
    Option.Rel (fun part x => ∃ less ≤ room, (Forms.ofContent less part).schemaMap = .ok x)
      (said? content) sources.chosen := by
  have hdefinitions := rel_said_definitions h
  have hcomponents := rel_said_components h
  rw [said?, DefinitionSources.chosen]
  generalize content.said? documentRecord.fields documentRecord.ofKey? .definitions = first
    at hdefinitions ⊢
  generalize content.said? documentRecord.fields documentRecord.ofKey? .components = second
    at hcomponents ⊢
  generalize sources.definitions = definitions at hdefinitions ⊢
  generalize sources.components = components at hcomponents ⊢
  cases hdefinitions with
  | some h => exact .some ⟨room - 1, Nat.sub_le room 1, h⟩
  | none =>
    cases hcomponents with
    | none => exact .none
    | @some part found h =>
      show Option.Rel _ (part.said? componentRecord.fields componentRecord.ofKey? .schemas) found
      have hschemas := rel_said_schemas h
      generalize part.said? componentRecord.fields componentRecord.ofKey? .schemas = third
        at hschemas ⊢
      cases hschemas with
      | none => exact .none
      | some hmap => exact .some ⟨room - 1 - 1, by omega, hmap⟩

end Sources

/-- **A document that was read** shows its text. -/
theorem shows_ofText {file : String} {text : List Char} {content : Content} {document : Document}
    (htext : Content.ofText? text = some content) (h : ofText file text = .ok document) :
    document.Shows content := by
  obtain ⟨sources, definitions, hsources, hchosen, rfl⟩ := (ofText_iff_ofContent htext file _).mp h
  have hrel := rel_said_chosen hsources
  rw [hchosen] at hrel
  cases hsaid : said? content with
  | none => rw [hsaid] at hrel; cases hrel
  | some part =>
    rw [hsaid] at hrel
    obtain ⟨less, hless, hmap⟩ : ∃ less ≤ maxDepth,
        (Forms.ofContent less part).schemaMap = .ok definitions := by
      cases hrel with
      | some h => exact h
    refine ⟨part, hsaid, ?_⟩
    rw [Node.ofEntries_eq]
    exact (hasEntries_of_schemaMap hmap).map fun _ _ =>
      shows_of_schema (Nat.le_trans (Nat.sub_le less 1) hless)

end Document

end Schema

end SchemaTypes
