import SchemaTypes.Json.Record
import SchemaTypes.Proofs.Json.Content
import SchemaTypes.Proofs.Json.Record
import Mathlib

/-!
# The fields of a record

What a record is read as depends on its fields alone: which part each of them has, and that none of
them stands twice. The order of the fields does not matter if filling one of them and then another
gives what the other order gives, and the entries of an object that name no field do not matter at
all. Reading a record in place goes through its entries one by one and can fail in several ways;
whether it succeeds, and with what, is told by the fields.

## Main definitions

* `Json.Content.fieldsOf`: the fields that the entries of an object name
* `Json.Content.fields`: the fields of a record in either of its forms
* `Json.fillAll`: a record with all its fields

## Main results

* `Json.fillAll_perm`, `Json.fillAll_split`: the order of the fields
* `Json.Record.bare_readObject`, `Json.Record.bare_readList`: reading a record in place
-/

namespace SchemaTypes

namespace Json

variable {φ σ κ : Type}

/-! ### Filling in fields -/

/-- A record with all its fields, no two of which may be the same. -/
def fillAll [DecidableEq φ] (fill : σ → φ → κ → Except Unit σ) (sofar : σ) (fields : List (φ × κ)) :
    Except Unit σ :=
  if (fields.map Prod.fst).Nodup then
    fields.foldlM (fun filled field => fill filled field.1 field.2) sofar
  else .error ()

/-- Filling in two fields gives the same in either order. -/
def Commutes (fill : σ → φ → κ → Except Unit σ) : Prop :=
  ∀ sofar field other part more, field ≠ other →
    (fill sofar field part >>= fun filled => fill filled other more) =
      fill sofar other more >>= fun filled => fill filled field part

/-- Fields that are read on their own and copied can be filled in in any order. -/
theorem commutes_of_copy {ρ : Type} {fill : σ → φ → κ → Except Unit σ}
    {read : φ → κ → Except Unit ρ} {copy : φ → ρ → σ → σ}
    (hfill : ∀ sofar field part,
      fill sofar field part = (read field part).map fun found => copy field found sofar)
    (hcopy : ∀ field other, field ≠ other → ∀ found more sofar,
      copy other more (copy field found sofar) = copy field found (copy other more sofar)) :
    Commutes fill := by
  intro sofar field other part more hne
  simp only [hfill]
  cases read field part with
  | error => cases read other more <;> rfl
  | ok found =>
    cases read other more with
    | error => rfl
    | ok second => exact congrArg Except.ok (hcopy field other hne found second sofar)

section Fill

variable [DecidableEq φ] {fill : σ → φ → κ → Except Unit σ} {sofar : σ}
  {fields others : List (φ × κ)}

theorem fillAll_nil : fillAll fill sofar [] = .ok sofar := rfl

theorem fillAll_cons (field : φ) (part : κ) (fields : List (φ × κ)) :
    fillAll fill sofar ((field, part) :: fields) =
      if field ∈ fields.map Prod.fst then .error ()
      else fill sofar field part >>= fun filled => fillAll fill filled fields := by
  simp only [fillAll, List.map_cons, List.nodup_cons, List.foldlM_cons]
  by_cases hmem : field ∈ fields.map Prod.fst
  · rw [if_pos hmem, if_neg fun h => h.1 hmem]
  · rw [if_neg hmem]
    by_cases hnodup : (fields.map Prod.fst).Nodup
    · simp only [if_pos hnodup, if_pos (And.intro hmem hnodup)]
    · simp only [if_neg hnodup, if_neg fun h : _ ∧ _ => hnodup h.2]
      cases fill sofar field part <;> rfl

/-- A field has not been seen if it is new and does not stand again. -/
theorem fillAll_cons_unseen {seen : List φ} {field : φ} {part : κ} (hseen : field ∉ seen) :
    (fill sofar field part >>= fun filled =>
      if ∃ found ∈ fields, found.1 ∈ field :: seen then .error () else fillAll fill filled fields) =
      if ∃ found ∈ (field, part) :: fields, found.1 ∈ seen then .error ()
      else fillAll fill sofar ((field, part) :: fields) := by
  have hnew : (∃ found ∈ (field, part) :: fields, found.1 ∈ seen) ↔
      ∃ found ∈ fields, found.1 ∈ seen := by
    simp [hseen]
  have hmore : (∃ found ∈ fields, found.1 ∈ field :: seen) ↔
      field ∈ fields.map Prod.fst ∨ ∃ found ∈ fields, found.1 ∈ seen := by
    simp only [List.mem_cons, and_or_left, exists_or, List.mem_map]
  rw [if_congr hnew rfl rfl, fillAll_cons]
  cases fill sofar field part with
  | error =>
    show (Except.error () : Except Unit σ) = _
    split
    · rfl
    · split <;> rfl
  | ok filled =>
    show (if _ then _ else _) = _
    by_cases hold : ∃ found ∈ fields, found.1 ∈ seen
    · rw [if_pos hold, if_pos (hmore.mpr (.inr hold))]
    · rw [if_neg hold]
      by_cases hagain : field ∈ fields.map Prod.fst
      · rw [if_pos hagain, if_pos (hmore.mpr (.inl hagain))]
      · rw [if_neg hagain, if_neg fun h => (hmore.mp h).elim hagain hold]
        rfl

/-- **The order of the fields does not matter.** -/
theorem fillAll_perm (hcomm : Commutes fill) (h : fields.Perm others) (sofar : σ) :
    fillAll fill sofar fields = fillAll fill sofar others := by
  induction h generalizing sofar with
  | nil => rfl
  | @cons field fields others h ih =>
    obtain ⟨name, part⟩ := field
    have hmem : name ∈ fields.map Prod.fst ↔ name ∈ others.map Prod.fst :=
      (h.map Prod.fst).mem_iff
    simp only [fillAll_cons, hmem, ih]
  | swap field other fields =>
    obtain ⟨name, part⟩ := field
    obtain ⟨second, more⟩ := other
    simp only [fillAll_cons, List.map_cons, List.mem_cons]
    by_cases heq : name = second
    · rw [if_pos (.inl heq.symm), if_pos (.inl heq)]
    · simp only [heq, Ne.symm heq, false_or]
      by_cases hname : name ∈ fields.map Prod.fst <;>
        by_cases hsecond : second ∈ fields.map Prod.fst
      · rw [if_pos hname, if_pos hsecond]
      · rw [if_neg hsecond]
        simp only [if_pos hname]
        cases fill sofar second more <;> rfl
      · rw [if_neg hname]
        simp only [if_pos hsecond]
        cases fill sofar name part <;> rfl
      · simp only [if_neg hname, if_neg hsecond]
        rw [← bind_assoc, ← bind_assoc, hcomm sofar name second part more heq]
  | trans _ _ ih ih' => exact (ih sofar).trans (ih' sofar)

/-- One field can be filled in last. -/
theorem fillAll_split (hcomm : Commutes fill) (before after : List (φ × κ)) (field : φ) (part : κ) :
    fillAll fill sofar (before ++ (field, part) :: after) =
      if field ∈ (before ++ after).map Prod.fst then .error ()
      else fillAll fill sofar (before ++ after) >>= fun filled => fill filled field part := by
  rw [fillAll_perm hcomm List.perm_middle]
  generalize before ++ after = fields
  induction fields generalizing sofar with
  | nil =>
    rw [fillAll_cons, fillAll_nil, List.map_nil, if_neg List.not_mem_nil, if_neg List.not_mem_nil]
    show _ = fill sofar field part
    cases fill sofar field part <;> rfl
  | cons first fields ih =>
    obtain ⟨name, more⟩ := first
    rw [fillAll_perm hcomm (.swap (name, more) (field, part) fields), fillAll_cons, fillAll_cons]
    simp only [ih, List.map_cons, List.mem_cons]
    by_cases heq : field = name
    · rw [if_pos (.inl heq.symm), if_pos (.inl heq)]
    · simp only [heq, Ne.symm heq, false_or]
      by_cases hname : name ∈ fields.map Prod.fst <;> by_cases hfield : field ∈ fields.map Prod.fst
      · rw [if_pos hname, if_pos hfield]
      · rw [if_pos hname, if_neg hfield]
        simp only [if_pos hname]
        rfl
      · simp only [if_neg hname, if_pos hfield]
        cases fill sofar name more <;> rfl
      · simp only [if_neg hname, if_neg hfield, bind_assoc]

/-- What no field changes but one is as before if that one does not stand there. -/
theorem fillAll_of_notMem {γ : Type} {get : σ → γ} {field : φ}
    (hget : ∀ sofar other part filled, other ≠ field → fill sofar other part = .ok filled →
      get filled = get sofar) (h : field ∉ fields.map Prod.fst) {result : σ}
    (hresult : fillAll fill sofar fields = .ok result) : get result = get sofar := by
  induction fields generalizing sofar with
  | nil => exact congrArg get (Except.ok.inj hresult).symm
  | cons first rest ih =>
    obtain ⟨other, part⟩ := first
    obtain ⟨hne, hrest⟩ := not_or.mp (mt List.mem_cons.mpr h)
    rw [fillAll_cons] at hresult
    split at hresult
    · cases hresult
    · obtain ⟨filled, hfilled, hresult⟩ := bind_eq_ok.mp hresult
      exact (ih hrest hresult).trans (hget sofar other part filled (Ne.symm hne) hfilled)

end Fill

/-! ### The fields that are written -/

namespace Content

/-- The field that an entry of an object is for. -/
def named (ofKey? : String → Option φ) (entry : Except Unit String × Content) :
    Option (φ × Content) :=
  (entry.1.toOption.bind ofKey?).map fun field => (field, entry.2)

/-- The fields that the entries of an object name, if all its keys can be read. -/
def fieldsOf (ofKey? : String → Option φ) (entries : List (Except Unit String × Content)) :
    Except Unit (List (φ × Content)) :=
  if ∀ entry ∈ entries, entry.1.isOk then .ok (entries.filterMap (named ofKey?)) else .error ()

/-- The fields of a record, in an object or as a list with an item for each of `all`. -/
def fields (all : List φ) (ofKey? : String → Option φ) : Content → Except Unit (List (φ × Content))
  | list items => if items.length = all.length then .ok (all.zip items) else .error ()
  | object entries => fieldsOf ofKey? entries
  | _ => .error ()

section FieldsOf

variable {ofKey? : String → Option φ} {name : String} {content : Content}
  {entries others : List (Except Unit String × Content)}

theorem fieldsOf_error (fault : Unit) :
    fieldsOf ofKey? ((.error fault, content) :: entries) = .error () :=
  if_neg fun h => nomatch h _ List.mem_cons_self

theorem fieldsOf_ok :
    fieldsOf ofKey? ((.ok name, content) :: entries) =
      (fieldsOf ofKey? entries).map fun fields =>
        (match ofKey? name with
          | none => fields
          | some field => (field, content) :: fields) := by
  have hmem : (∀ entry ∈ (.ok name, content) :: entries, entry.1.isOk) ↔
      ∀ entry ∈ entries, entry.1.isOk :=
    List.forall_mem_cons.trans (and_iff_right rfl)
  simp only [fieldsOf, hmem]
  split
  · rw [List.filterMap_cons]
    cases h : ofKey? name <;> simp [named, Except.toOption, h, Except.map]
  · rfl

/-- **The order of the entries of a record does not matter.** -/
theorem record_perm [DecidableEq φ] {fill : σ → φ → Content → Except Unit σ}
    (hcomm : Commutes fill) (h : entries.Perm others) (empty : σ) :
    fieldsOf ofKey? entries >>= fillAll fill empty =
      fieldsOf ofKey? others >>= fillAll fill empty := by
  have hkeys : (∀ entry ∈ entries, entry.1.isOk) ↔ ∀ entry ∈ others, entry.1.isOk :=
    forall_congr' fun entry => imp_congr_left h.mem_iff
  rw [fieldsOf, fieldsOf]
  by_cases hothers : ∀ entry ∈ others, entry.1.isOk
  · rw [if_pos hothers, if_pos (hkeys.mpr hothers)]
    exact fillAll_perm hcomm (h.filterMap _) empty
  · rw [if_neg hothers, if_neg fun hentries => hothers (hkeys.mp hentries)]

/-- An entry that names no field does not matter. -/
theorem fieldsOf_unknown {before after : List (Except Unit String × Content)}
    (h : ofKey? name = none) :
    fieldsOf ofKey? (before ++ (.ok name, content) :: after) =
      fieldsOf ofKey? (before ++ after) := by
  have hnamed : named ofKey? (.ok name, content) = none := by
    rw [named]
    show (ofKey? name).map _ = none
    rw [h]
    rfl
  simp only [fieldsOf, List.filterMap_append, List.filterMap_cons_none hnamed,
    List.forall_mem_append, List.forall_mem_cons]
  congr 1
  simp [Except.isOk, Except.toBool]

/-- A key matters by the field that it names. -/
theorem fieldsOf_congr {before after : List (Except Unit String × Content)} {spelling : String}
    (h : ofKey? name = ofKey? spelling) :
    fieldsOf ofKey? (before ++ (.ok name, content) :: after) =
      fieldsOf ofKey? (before ++ (.ok spelling, content) :: after) := by
  have hnamed : named ofKey? (.ok name, content) = named ofKey? (.ok spelling, content) := by
    rw [named, named]
    show (ofKey? name).map _ = (ofKey? spelling).map _
    rw [h]
  simp only [fieldsOf, List.filterMap_append, List.filterMap_cons, hnamed, List.forall_mem_append,
    List.forall_mem_cons]
  rfl

end FieldsOf

end Content

/-! ### Reading in place -/

namespace Record

variable [DecidableEq φ] {record : Record φ σ κ} {fill : σ → φ → Content → Except Unit σ}
  {sofar : σ}

/-- A part fills fields with what its node says. -/
structure FilledBy (record : Record φ σ κ) (fill : σ → φ → Content → Except Unit σ) (part : κ) :
    Prop where
  check : (record.tree part).IsGrammatical
  fill : ∀ sofar field, bare (record.fill sofar field part) =
    fill sofar field (record.tree part).content

/-- What the entries of an object say. -/
def contents (record : Record φ σ κ) (entries : List (Key × κ)) :
    List (Except Unit String × Content) :=
  entries.map fun entry => (bare entry.1.reading, (record.tree entry.2).content)

theorem bare_readEntries {entries : List (Key × κ)}
    (h : ∀ entry ∈ entries, record.FilledBy fill entry.2) (seen : List φ) (first : Bool)
    (stop : Nat) :
    bare (record.readEntries seen sofar first (.closed stop) entries) =
      Content.fieldsOf record.ofKey? (record.contents entries) >>= fun fields =>
        if ∃ field ∈ fields, field.1 ∈ seen then .error () else fillAll fill sofar fields := by
  induction entries generalizing seen sofar first with
  | nil => rfl
  | cons entry rest ih =>
    obtain ⟨key, part⟩ := entry
    obtain ⟨hpart, hrest⟩ := List.forall_mem_cons.mp h
    have ih := fun seen sofar => @ih sofar hrest seen false
    have hcontents : record.contents ((key, part) :: rest) =
      (bare key.reading, (record.tree part).content) :: record.contents rest := rfl
    rw [hcontents]
    cases hname : key.reading with
    | error fault =>
      have hclaim : record.claim seen key = .error fault := by rw [claim, hname]; rfl
      rw [readEntries, hclaim, bare_error, Content.fieldsOf_error]
      rfl
    | ok name =>
      rw [bare_ok, Content.fieldsOf_ok]
      cases hfield : record.ofKey? name with
      | none =>
        rw [readEntries_skip hname hfield, hpart.check]
        refine (ih seen sofar).trans ?_
        cases Content.fieldsOf record.ofKey? (record.contents rest) <;> rfl
      | some field =>
        by_cases hseen : field ∈ seen
        · rw [readEntries_again hname hfield hseen]
          cases Content.fieldsOf record.ofKey? (record.contents rest) with
          | error => rfl
          | ok fields => exact (if_pos ⟨_, List.mem_cons_self, hseen⟩).symm
        · rw [readEntries_fill hname hfield hseen, bare_bind, hpart.fill]
          simp only [ih]
          cases Content.fieldsOf record.ofKey? (record.contents rest) with
          | error => cases fill sofar field (record.tree part).content <;> rfl
          | ok fields => exact fillAll_cons_unseen hseen

/-- **A record that is written as an object** is told by its fields. -/
theorem bare_readObject {entries : List (Key × κ)}
    (h : ∀ entry ∈ entries, record.FilledBy fill entry.2) (stop : Nat) :
    bare (record.readObject (.closed stop) entries) =
      Content.fieldsOf record.ofKey? (record.contents entries) >>= fillAll fill record.empty := by
  rw [readObject, bare_readEntries h]
  congr 1
  funext fields
  refine if_neg ?_
  rintro ⟨field, -, hseen⟩
  exact List.not_mem_nil hseen

theorem bare_readItems {items : List κ} (h : ∀ item ∈ items, record.FilledBy fill item)
    (stop : Nat) {wanted : List φ} (hwanted : wanted.Nodup) :
    bare (record.readItems sofar (.closed stop) wanted items) =
      if items.length = wanted.length then
        fillAll fill sofar (wanted.zip (items.map fun item => (record.tree item).content))
      else .error () := by
  induction items generalizing sofar wanted with
  | nil => cases wanted <;> rfl
  | cons item rest ih =>
    cases wanted with
    | nil => rfl
    | cons field wanted =>
      obtain ⟨hitem, hrest⟩ := List.forall_mem_cons.mp h
      obtain ⟨hfield, hwanted⟩ := List.nodup_cons.mp hwanted
      rw [readItems, bare_bind, hitem.fill]
      simp only [ih hrest hwanted, List.length_cons, Nat.add_right_cancel_iff]
      split
      · rw [List.map_cons, List.zip_cons_cons, fillAll_cons, if_neg]
        intro hmem
        obtain ⟨found, hfound, rfl⟩ := List.mem_map.mp hmem
        exact hfield (List.of_mem_zip hfound).1
      · cases fill sofar field (record.tree item).content <;> rfl

/-- **A record that is written as a list** is told by its fields. -/
theorem bare_readList {items : List κ} (h : ∀ item ∈ items, record.FilledBy fill item)
    (stop : Nat) (hfields : record.fields.Nodup) :
    bare (record.readList (.closed stop) items) =
      (Content.list (items.map fun item => (record.tree item).content)).fields record.fields
        record.ofKey? >>= fillAll fill record.empty := by
  rw [readList, bare_readItems h stop hfields, Content.fields, List.length_map]
  split <;> rfl

end Record

end Json

end SchemaTypes
