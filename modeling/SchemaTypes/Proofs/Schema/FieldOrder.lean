import SchemaTypes.Proofs.Schema.Shown
import Mathlib

/-!
# The order of fields, and fields that are not known

A schema object is read field by field, and neither the order of its fields nor a field that it does
not know changes what is read. One of its fields has two spellings. All this holds of every schema
object of a document, at any depth: a document is the same whatever is done to the fields of the
schema objects in its text, step by step.

A map of properties has the form of a schema object and is read in another way. Its entries are kept
in their order, and so are the definitions of a document and additional properties.

That no key is repeated is needed below `additionalProperties`. What stands there is read as a value
first, and of a repeated key a value keeps the last entry.

## Main definitions

* `Schema.Varied`: one change of the fields of a schema object

## Main results

* `Schema.Document.ofText_varied`: documents whose schema objects have the same fields
-/

namespace SchemaTypes

open Json

namespace Json

/-- No two entries have the same key. -/
def NoKeyTwice (entries : List (Except Unit String × Content)) : Prop :=
  (entries.filterMap fun entry => entry.1.toOption).Nodup

instance (entries : List (Except Unit String × Content)) : Decidable (NoKeyTwice entries) :=
  inferInstanceAs (Decidable (List.Nodup _))

namespace Content

/-- What is read of two lists is read of each. -/
theorem forall₂_append_iff {α β : Type} {r : α → β → Prop} {before after : List α}
    {items : List β} :
    List.Forall₂ r (before ++ after) items ↔ ∃ first rest, items = first ++ rest ∧
      List.Forall₂ r before first ∧ List.Forall₂ r after rest := by
  constructor
  · intro h
    induction before generalizing items with
    | nil => exact ⟨[], items, rfl, .nil, h⟩
    | cons x before ih =>
      obtain ⟨y, others, hxy, hothers, rfl⟩ := List.forall₂_cons_left_iff.mp h
      obtain ⟨first, rest, rfl, hfirst, hrest⟩ := ih hothers
      exact ⟨y :: first, rest, rfl, .cons hxy hfirst, hrest⟩
  · rintro ⟨first, rest, rfl, hfirst, hrest⟩
    exact List.rel_append hfirst hrest

/-- The entries of an object are read as keyed values. -/
def Reads (room : Nat) (entry : Except Unit String × Content) (found : String × Value) : Prop :=
  entry.1 = .ok found.1 ∧ entry.2.value room = .ok found.2

section Entries

variable {room : Nat} {entries : List (Except Unit String × Content)}
  {found : List (String × Value)}

theorem keyed_eq_ok {entry : Except Unit String × Content} {x : String × Value} :
    keyed (value room) entry = .ok x ↔ Reads room entry x := by
  obtain ⟨key, part⟩ := entry
  rw [keyed]
  constructor
  · intro h
    obtain ⟨name, hname, h⟩ := bind_eq_ok.mp h
    obtain ⟨value, hvalue, h⟩ := bind_eq_ok.mp h
    obtain rfl := Except.ok.inj h
    exact ⟨hname, hvalue⟩
  · rintro ⟨hname, hvalue⟩
    rw [hname, hvalue]
    rfl

theorem names_eq (h : List.Forall₂ (Reads room) entries found) :
    (entries.filterMap fun entry => entry.1.toOption) = found.map Prod.fst := by
  induction h with
  | nil => rfl
  | @cons entry x _ _ hfirst _ ih =>
    rw [List.filterMap_cons, hfirst.1, ih]
    rfl

/-- The entry that stands in the middle is read in the middle. -/
theorem reads_middle {before after : List (Except Unit String × Content)} {name : String}
    {part : Content} :
    List.Forall₂ (Reads room) (before ++ (.ok name, part) :: after) found ↔
      ∃ first value rest, found = first ++ (name, value) :: rest ∧
        List.Forall₂ (Reads room) before first ∧ part.value room = .ok value ∧
        List.Forall₂ (Reads room) after rest := by
  rw [forall₂_append_iff]
  constructor
  · rintro ⟨first, others, rfl, hfirst, hothers⟩
    obtain ⟨x, rest, hx, hrest, rfl⟩ := List.forall₂_cons_left_iff.mp hothers
    obtain ⟨key, value⟩ := x
    obtain ⟨hname, hvalue⟩ := hx
    obtain rfl : name = key := Except.ok.inj hname
    exact ⟨first, value, rest, rfl, hfirst, hvalue, hrest⟩
  · rintro ⟨first, value, rest, rfl, hfirst, hvalue, hrest⟩
    exact ⟨first, _, rfl, hfirst, .cons ⟨rfl, hvalue⟩ hrest⟩

/-- An object that repeats no key is read with all its entries. -/
theorem value_object_eq_ok (hkeys : NoKeyTwice entries) {value : Value} :
    (object entries).value room = .ok value ↔ room ≠ 0 ∧
      ∃ found, List.Forall₂ (Reads (room - 1)) entries found ∧ value = .object found := by
  have hcollect : ∀ found, List.Forall₂ (Reads (room - 1)) entries found →
      Entries.collect found = found :=
    fun found h => Entries.collect_eq_self (by rw [← names_eq h]; exact hkeys)
  have hread : ∀ found, entries.mapM (keyed (Content.value (room - 1))) = .ok found ↔
      List.Forall₂ (Reads (room - 1)) entries found := by
    intro found
    rw [mapM_eq_ok_iff]
    simp only [keyed_eq_ok]
  rw [value_object, valueEntries_eq, enter_eq_ok]
  refine and_congr_right fun _ => ⟨fun h => ?_, ?_⟩
  · obtain ⟨collected, hcollected, rfl⟩ := map_eq_ok.mp h
    obtain ⟨found, hfound, rfl⟩ := map_eq_ok.mp hcollected
    have hfound := (hread found).mp hfound
    exact ⟨found, hfound, by rw [hcollect found hfound]⟩
  · rintro ⟨found, hfound, rfl⟩
    rw [(hread found).mpr hfound]
    exact congrArg (Except.ok ∘ Value.object) (hcollect found hfound)

/-- What is read repeats a key if what it is read from does. -/
theorem noKeyTwice_ofEntries (h : List.Forall₂ (Reads room) entries found) :
    NoKeyTwice (ofEntries found) ↔ NoKeyTwice entries := by
  rw [NoKeyTwice, NoKeyTwice, names_eq h, ofEntries_eq, List.filterMap_map]
  exact iff_of_eq (congrArg List.Nodup (congrFun List.filterMap_eq_map found))

end Entries

end Content

end Json

namespace Schema

/-- One change of the fields of a schema object in which no key is repeated: the fields are put in
another order, a field that is not known is added, or the nullable clause is spelled in its other
way. What is added can be read as a value, where `room` levels may be entered. -/
inductive Varied (room : Nat) : Content → Content → Prop
  | permuted {entries others : List (Except Unit String × Content)} (h : entries.Perm others)
      (hkeys : NoKeyTwice entries) : Varied room (.object entries) (.object others)
  | extended (before after : List (Except Unit String × Content)) {name : String} {part : Content}
      (hname : Clause.ofKey? name = none) (hvalue : ∃ value, part.value (room - 1) = .ok value)
      (hkeys : NoKeyTwice (before ++ (.ok name, part) :: after)) :
      Varied room (.object (before ++ after)) (.object (before ++ (.ok name, part) :: after))
  | respelled (before after : List (Except Unit String × Content)) (part : Content)
      (hkeys : NoKeyTwice (before ++ (.ok "x-nullable", part) :: after))
      (hothers : NoKeyTwice (before ++ (.ok "x_nullable", part) :: after)) :
      Varied room (.object (before ++ (.ok "x-nullable", part) :: after))
        (.object (before ++ (.ok "x_nullable", part) :: after))

namespace Varied

variable {room : Nat} {content other : Content}

/-- **The fields tell what a schema object is read as.** -/
theorem schema_eq (h : Varied room content other) :
    (Forms.ofContent room content).schema = (Forms.ofContent room other).schema := by
  cases room with
  | zero => cases h <;> rfl
  | succ room =>
    cases h with
    | permuted h hkeys => exact Content.record_perm (Clauses.commutes_fill room) h .empty
    | extended before after hname hvalue hkeys =>
      exact congrArg (· >>= _) (Content.fieldsOf_unknown hname).symm
    | respelled before after part hkeys hothers =>
      exact congrArg (· >>= _) (Content.fieldsOf_congr (by decide))

/-- A variation of values. -/
def Values (room : Nat) (value changed : Value) : Prop :=
  Varied room (.ofValue value) (.ofValue changed)

/-- Two objects that repeat no key are read entry by entry. -/
theorem follows_object {r : Value → Value → Prop}
    {entries others : List (Except Unit String × Content)} (hkeys : NoKeyTwice entries)
    (hothers : NoKeyTwice others)
    (h : ∀ found, List.Forall₂ (Content.Reads (room - 1)) entries found →
      ∃ changed, List.Forall₂ (Content.Reads (room - 1)) others changed ∧
        r (.object found) (.object changed)) :
    Follows r ((Content.object entries).value room) ((Content.object others).value room) := by
  intro value hvalue
  obtain ⟨hroom, found, hfound, rfl⟩ := (Content.value_object_eq_ok hkeys).mp hvalue
  obtain ⟨changed, hchanged, hr⟩ := h found hfound
  exact ⟨.object changed,
    (Content.value_object_eq_ok hothers).mpr ⟨hroom, changed, hchanged, rfl⟩, hr⟩

/-- Entries in another order are read in that order. -/
theorem follows_permuted {entries others : List (Except Unit String × Content)}
    (h : entries.Perm others) (hkeys : NoKeyTwice entries) :
    Follows (fun value changed => Values room value changed ∧ Values room changed value)
      ((Content.object entries).value room) ((Content.object others).value room) := by
  have hothers : NoKeyTwice others := (h.filterMap _).nodup_iff.mp hkeys
  refine follows_object hkeys hothers fun found hfound => ?_
  obtain ⟨changed, hchanged, hperm⟩ := List.perm_comp_forall₂ h.symm hfound
  have hpermuted : (Content.ofEntries found).Perm (Content.ofEntries changed) := by
    rw [Content.ofEntries_eq, Content.ofEntries_eq]
    exact hperm.symm.map _
  exact ⟨changed, hchanged,
    .permuted hpermuted ((Content.noKeyTwice_ofEntries hfound).mpr hkeys),
    .permuted hpermuted.symm ((Content.noKeyTwice_ofEntries hchanged).mpr hothers)⟩

section Middle

variable {before after : List (Except Unit String × Content)} {name : String} {part : Content}
  {first rest : List (String × Value)} {value : Value}

/-- What is read with an entry in the middle repeats no key either. -/
theorem noKeyTwice_read (hkeys : NoKeyTwice (before ++ (.ok name, part) :: after))
    (hfirst : List.Forall₂ (Content.Reads (room - 1)) before first)
    (hvalue : part.value (room - 1) = .ok value)
    (hrest : List.Forall₂ (Content.Reads (room - 1)) after rest) :
    NoKeyTwice
      (Content.ofEntries first ++ (.ok name, .ofValue value) :: Content.ofEntries rest) := by
  have hfound : List.Forall₂ (Content.Reads (room - 1)) (before ++ (.ok name, part) :: after)
      (first ++ (name, value) :: rest) :=
    Content.reads_middle.mpr ⟨first, value, rest, rfl, hfirst, hvalue, hrest⟩
  have hnames := (Content.noKeyTwice_ofEntries hfound).mpr hkeys
  rwa [Content.ofEntries_append] at hnames

/-- A field that is not known is one more entry of the value. -/
theorem values_extended (hname : Clause.ofKey? name = none)
    (hkeys : NoKeyTwice (before ++ (.ok name, part) :: after))
    (hfirst : List.Forall₂ (Content.Reads (room - 1)) before first)
    (hvalue : part.value (room - 1) = .ok value)
    (hrest : List.Forall₂ (Content.Reads (room - 1)) after rest) :
    Values room (.object (first ++ rest)) (.object (first ++ (name, value) :: rest)) := by
  rw [Values, Content.ofValue, Content.ofValue, Content.ofEntries_append, Content.ofEntries_append]
  exact .extended _ _ hname ⟨value, Content.value_ofValue (Content.held_of_value _ hvalue)⟩
    (noKeyTwice_read hkeys hfirst hvalue hrest)

/-- The nullable clause can be spelled in both ways in a value. -/
theorem values_respelled (hkeys : NoKeyTwice (before ++ (.ok "x-nullable", part) :: after))
    (hothers : NoKeyTwice (before ++ (.ok "x_nullable", part) :: after))
    (hfirst : List.Forall₂ (Content.Reads (room - 1)) before first)
    (hvalue : part.value (room - 1) = .ok value)
    (hrest : List.Forall₂ (Content.Reads (room - 1)) after rest) :
    Values room (.object (first ++ ("x-nullable", value) :: rest))
      (.object (first ++ ("x_nullable", value) :: rest)) := by
  rw [Values, Content.ofValue, Content.ofValue, Content.ofEntries_append, Content.ofEntries_append]
  exact .respelled _ _ _ (noKeyTwice_read hkeys hfirst hvalue hrest)
    (noKeyTwice_read hothers hfirst hvalue hrest)

theorem noKeyTwice_of_middle (h : NoKeyTwice (before ++ (.ok name, part) :: after)) :
    NoKeyTwice (before ++ after) := by
  rw [NoKeyTwice, List.filterMap_append] at h ⊢
  exact h.sublist ((List.Sublist.refl _).append (List.sublist_cons_self _ _))

end Middle

/-- **The value of a schema object whose fields are varied** is varied, in both directions. -/
theorem follows_value (h : Varied room content other) :
    Follows (Values room) (content.value room) (other.value room) ∧
      Follows (fun changed value => Values room value changed) (other.value room)
        (content.value room) := by
  cases h with
  | permuted h hkeys =>
    have hothers := (h.filterMap _).nodup_iff.mp hkeys
    exact ⟨(follows_permuted h hkeys).mono fun _ _ hboth => hboth.1,
      (follows_permuted h.symm hothers).mono fun _ _ hboth => hboth.2⟩
  | extended before after hname hvalue hkeys =>
    have hless := noKeyTwice_of_middle hkeys
    obtain ⟨added, hadded⟩ := hvalue
    constructor
    · refine follows_object hless hkeys fun found hfound => ?_
      obtain ⟨first, rest, rfl, hfirst, hrest⟩ := Content.forall₂_append_iff.mp hfound
      exact ⟨_, Content.reads_middle.mpr ⟨first, added, rest, rfl, hfirst, hadded, hrest⟩,
        values_extended hname hkeys hfirst hadded hrest⟩
    · refine follows_object hkeys hless fun found hfound => ?_
      obtain ⟨first, value, rest, rfl, hfirst, hvalue, hrest⟩ := Content.reads_middle.mp hfound
      exact ⟨_, Content.forall₂_append_iff.mpr ⟨first, rest, rfl, hfirst, hrest⟩,
        values_extended hname hkeys hfirst hvalue hrest⟩
  | respelled before after part hkeys hothers =>
    constructor
    · refine follows_object hkeys hothers fun found hfound => ?_
      obtain ⟨first, value, rest, rfl, hfirst, hvalue, hrest⟩ := Content.reads_middle.mp hfound
      exact ⟨_, Content.reads_middle.mpr ⟨first, value, rest, rfl, hfirst, hvalue, hrest⟩,
        values_respelled hkeys hothers hfirst hvalue hrest⟩
    · refine follows_object hothers hkeys fun found hfound => ?_
      obtain ⟨first, value, rest, rfl, hfirst, hvalue, hrest⟩ := Content.reads_middle.mp hfound
      exact ⟨_, Content.reads_middle.mpr ⟨first, value, rest, rfl, hfirst, hvalue, hrest⟩,
        values_respelled hkeys hothers hfirst hvalue hrest⟩

theorem isNull_eq (h : Varied room content other) : content.isNull = other.isNull := by
  cases h <;> rfl

end Varied

/-- A variation that is made or taken back. -/
def Unvaried (room : Nat) (content other : Content) : Prop :=
  Varied room content other ∨ Varied room other content

/-- **A reader can bear a variation** and reads the same. -/
theorem tolerated_unvaried : Tolerated Unvaried Eq where
  isNull h := h.elim Varied.isNull_eq fun h => h.isNull_eq.symm
  schema h := .of_eq (h.elim Varied.schema_eq fun h => h.schema_eq.symm)
  value h := h.elim
    (fun h => h.follows_value.1.mono fun _ _ hvalues => .inr ⟨.inl hvalues, .inr hvalues⟩)
    (fun h => h.follows_value.2.mono fun _ _ hvalues => .inr ⟨.inr hvalues, .inl hvalues⟩)

theorem Clauses.within_eq {clauses other : Clauses} (h : Within Eq clauses other) :
    clauses = other := by
  induction h with
  | same => rfl
  | here h => exact h
  | property _ _ _ _ _ ih => rw [ih]
  | part _ _ _ _ ih => rw [ih]
  | item _ _ ih => rw [ih]
  | opened _ _ _ _ _ ih => rw [ih]

theorem DefinitionSources.chosen_eq_of_within {sources other : DefinitionSources}
    (h : sources.Within Eq other) : sources.chosen = other.chosen := by
  rw [Within] at h
  generalize sources.chosen = found at h ⊢
  generalize other.chosen = changed at h ⊢
  cases h with
  | none => rfl
  | some h =>
    refine congrArg some (h.eq fun entry changed hentry => ?_)
    exact Prod.ext hentry.key (Clauses.within_eq hentry.item)

/-- **What is found in a document** whose schema objects are varied in one place. -/
theorem map_chosen_eq {content other : Content}
    (h : Changed Varied .document maxDepth content other) :
    (DefinitionSources.ofContent maxDepth content).map DefinitionSources.chosen =
      (DefinitionSources.ofContent maxDepth other).map DefinitionSources.chosen := by
  have hforth := (h.mono fun _ _ _ => Or.inl).follows_document tolerated_unvaried
  have hback := (h.symm fun _ _ _ => Or.inr).follows_document tolerated_unvaried
  cases hread : DefinitionSources.ofContent maxDepth content with
  | ok sources =>
    obtain ⟨result, hresult, hwithin⟩ := hforth sources hread
    rw [hresult]
    exact congrArg Except.ok (DefinitionSources.chosen_eq_of_within hwithin)
  | error =>
    cases hother : DefinitionSources.ofContent maxDepth other with
    | error => rfl
    | ok sources =>
      obtain ⟨result, hresult, -⟩ := hback sources hother
      exact nomatch hread.symm.trans hresult

namespace Document

theorem ofText_iff_chosen {text : List Char} {content : Content}
    (htext : Content.ofText? text = some content) (file : String) (document : Document) :
    ofText file text = .ok document ↔ ∃ definitions,
      (DefinitionSources.ofContent maxDepth content).map DefinitionSources.chosen =
        .ok (some definitions) ∧ document = ⟨Node.ofEntries definitions⟩ := by
  rw [ofText_iff_ofContent htext]
  constructor
  · rintro ⟨sources, definitions, hsources, hchosen, rfl⟩
    exact ⟨definitions, map_eq_ok.mpr ⟨sources, hsources, hchosen⟩, rfl⟩
  · rintro ⟨definitions, hmap, rfl⟩
    obtain ⟨sources, hsources, hchosen⟩ := map_eq_ok.mp hmap
    exact ⟨sources, definitions, hsources, hchosen, rfl⟩

/-- **A document does not depend on the order of fields, on fields that are not known and on the
spelling of the nullable clause**, wherever in the document this is varied and however often. The
order of its definitions, its properties and its additional properties is that of the text. -/
theorem ofText_varied {text changed : List Char} {content other : Content}
    (htext : Content.ofText? text = some content) (hchanged : Content.ofText? changed = some other)
    (h : Relation.EqvGen (Changed Varied .document maxDepth) content other) (file : String) :
    (∀ document, ofText file text = .ok document ↔ ofText file changed = .ok document) ∧
      ∀ document, ofText file text = .ok document →
        document.Shows content ∧ document.Shows other := by
  have hchosen : (DefinitionSources.ofContent maxDepth content).map DefinitionSources.chosen =
      (DefinitionSources.ofContent maxDepth other).map DefinitionSources.chosen :=
    (eq_equivalence.comap fun content =>
      (DefinitionSources.ofContent maxDepth content).map DefinitionSources.chosen).eqvGen_iff.mp
      (h.mono fun _ _ => map_chosen_eq)
  have hsame : ∀ document,
      ofText file text = .ok document ↔ ofText file changed = .ok document := by
    intro document
    rw [ofText_iff_chosen htext, ofText_iff_chosen hchanged, hchosen]
  exact ⟨hsame, fun document hdocument => ⟨shows_ofText htext hdocument,
    shows_ofText hchanged ((hsame document).mp hdocument)⟩⟩

/-- What a document says that defines a crate, from the fields of the crate. -/
def crateContent (fields : List (Except Unit String × Content)) : Content :=
  .object [(.ok "definitions", .object [(.ok "Crate", .object fields)])]

/-- A field of a crate or of its lid that tells its type. -/
def typeField (name : String) : Except Unit String × Content :=
  (.ok "type", .text (.ok name))

/-- The additional properties of a crate, from the fields of its lid. -/
def lidField (fields : List (Except Unit String × Content)) : Except Unit String × Content :=
  (.ok "additionalProperties", .object [(.ok "lid", .object fields)])

/-- A field of a lid that tells that there may be none. -/
def nullableField (name : String) : Except Unit String × Content :=
  (.ok name, .plain (.ok (.boolean true)))

/-- A crate that has a lid below `additionalProperties`. -/
def crateText : List Char :=
  entryText "definitions" (entryText "Crate"
    ("\x7b\"type\": \"object\", \"additionalProperties\": " ++
    "\x7b\"lid\": \x7b\"type\": \"string\", \"x-nullable\": true\x7d\x7d\x7d").toList)

/-- The crate with its fields and those of its lid in another order, with a field of the lid that is
not known and one that is spelled in another way. -/
def shuffledText : List Char :=
  entryText "definitions" (entryText "Crate"
    ("\x7b\"additionalProperties\": \x7b\"lid\": " ++
    "\x7b\"x_nullable\": true, \"x-note\": [\x7b\x7d], \"type\": \"string\"\x7d\x7d, " ++
    "\"type\": \"object\"\x7d").toList)

/-- The document that both texts are. -/
def crateDocument : Document where
  definitions := [("Crate",
    { Node.primitive .object with
      kind := .openMap [("lid", { Node.primitive .string with nullable := true })] })]

/-- The second text is the document that the first one is. -/
theorem ofText_varied_crate :
    ∃ content other, Content.ofText? crateText = some content ∧
      Content.ofText? shuffledText = some other ∧
      Relation.EqvGen (Changed Varied .document maxDepth) content other ∧
      ofText "crate.json" crateText = .ok crateDocument ∧
      ofText "crate.json" shuffledText = .ok crateDocument ∧ crateDocument.Shows other := by
  have hcrate : Content.ofText? crateText = some (crateContent
      [typeField "object", lidField [typeField "string", nullableField "x-nullable"]]) := by cbv
  have hshuffled : Content.ofText? shuffledText = some (crateContent
      [lidField [nullableField "x_nullable", (.ok "x-note", .list [.object []]),
        typeField "string"], typeField "object"]) := by cbv
  have hfields : Relation.EqvGen (Changed Varied .document maxDepth)
      (crateContent [typeField "object", lidField [typeField "string", nullableField "x-nullable"]])
      (crateContent
        [lidField [typeField "string", nullableField "x-nullable"], typeField "object"]) :=
    .rel _ _ (.entry [] [] rfl (.entry [] [] rfl
      (.here (.permuted (.swap _ _ _) (by decide)))))
  have hlid : ∀ {fields others : List (Except Unit String × Content)},
      Varied 123 (.object fields) (.object others) →
        Relation.EqvGen (Changed Varied .document maxDepth)
          (crateContent [lidField fields, typeField "object"])
          (crateContent [lidField others, typeField "object"]) :=
    fun h => .rel _ _ (.entry [] [] rfl (.entry [] [] rfl (.entry [] _ rfl (.entry [] [] rfl
      (.here h)))))
  have hspelled := hlid (.respelled [typeField "string"] [] (.plain (.ok (.boolean true)))
    (by decide) (by decide))
  have hswapped := hlid (.permuted (.swap (nullableField "x_nullable") (typeField "string") [])
    (by decide))
  have hextended := hlid (show Varied 123
      (.object [nullableField "x_nullable", typeField "string"])
      (.object [nullableField "x_nullable", (.ok "x-note", .list [.object []]),
        typeField "string"]) from
    .extended [nullableField "x_nullable"] [typeField "string"] (by decide)
      ⟨.array [.object []], rfl⟩ (by decide))
  have h := hfields.trans _ _ _ (hspelled.trans _ _ _ (hswapped.trans _ _ _ hextended))
  have hread : ofText "crate.json" crateText = .ok crateDocument := by cbv
  obtain ⟨hsame, hshows⟩ := ofText_varied hcrate hshuffled h "crate.json"
  exact ⟨_, _, hcrate, hshuffled, h, hread, (hsame crateDocument).mp hread,
    (hshows crateDocument hread).2⟩

end Document

end Schema

end SchemaTypes
