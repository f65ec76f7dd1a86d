import SchemaTypes.Settings
import SchemaTypes.Proofs.Json.Record
import SchemaTypes.Proofs.Toml.Distinct

/-!
# Settings in layers

What is said of the settings in one place is a layer: some fields have a value and others have none.
A layer lies over settings, which hold wherever it says nothing. A text of settings is a layer over
the standard ones, in which a field has the value that stands under its key in the table of its
section, or at its place if the section is a list.

Entries are visited in the order of their names, each of them fills the field with its key, and no
two have the same key. So what a field holds in the end hangs on its own entry alone.

## Main definitions

* `Settings.Layer`, `Settings.Layer.over`: a layer, and the settings with a layer over them
* `Settings.Group.given?`: what a table or a list gives for a field
* `Settings.Layer.ofEntries`: the layer of a text

## Main results

* `Settings.Group.get_read`: what a field holds after its section has been read
* `Settings.eq_over_of_ofText`: the settings of a text
-/

namespace SchemaTypes

namespace Settings

open Json (bind_eq_ok)

/-- What is said of the settings in one place. -/
structure Layer where
  inputPath : Option String
  indent : Option Nat
  exported : Option Bool
  header : Option String

/-- The settings with a layer over them. -/
def Layer.over (layer : Layer) (settings : Settings) : Settings where
  inputPath := layer.inputPath.getD settings.inputPath
  indent := layer.indent.getD settings.indent
  exported := layer.exported.getD settings.exported
  header := layer.header.or settings.header

/-! ### One field in the course of a reading -/

/-- What no step changes stays as it is. -/
theorem get_foldlM_of_forall {α ι : Type} {get : Settings → α}
    {step : Settings → ι → Except Fault Settings} {settings after : Settings} {steps : List ι}
    (hstep : ∀ {settings after i}, step settings i = .ok after → get after = get settings)
    (h : steps.foldlM step settings = .ok after) : get after = get settings := by
  induction steps generalizing settings with
  | nil =>
    cases h
    rfl
  | cons i rest ih =>
    rw [List.foldlM_cons, bind_eq_ok] at h
    obtain ⟨next, hnext, hrest⟩ := h
    rw [ih hrest, hstep hnext]

/-- If only the step with some key changes a field, and no two steps have the same key, the field
ends as that step leaves it. -/
theorem get_foldlM {α ι κ : Type} [DecidableEq κ] {get : Settings → α}
    {step : Settings → ι → Except Fault Settings} {settings after : Settings} (key : ι → κ)
    (target : κ) (update : ι → α → α) {steps : List ι}
    (hhit : ∀ i ∈ steps, key i = target → ∀ {settings after}, step settings i = .ok after →
      get after = update i (get settings))
    (hmiss : ∀ i ∈ steps, key i ≠ target → ∀ {settings after}, step settings i = .ok after →
      get after = get settings)
    (honce : steps.Pairwise fun first second => key first ≠ key second)
    (h : steps.foldlM step settings = .ok after) :
    get after =
      (steps.find? fun i => key i = target).elim (get settings) fun i =>
        update i (get settings) := by
  induction steps generalizing settings with
  | nil =>
    cases h
    rfl
  | cons i rest ih =>
    rw [List.foldlM_cons, bind_eq_ok] at h
    obtain ⟨next, hnext, hrest⟩ := h
    obtain ⟨hfirst, honce⟩ := List.pairwise_cons.mp honce
    have hafter := ih (fun j hj => hhit j (List.mem_cons_of_mem i hj))
      (fun j hj => hmiss j (List.mem_cons_of_mem i hj)) honce hrest
    by_cases hkey : key i = target
    · have hnone : (rest.find? fun j => key j = target) = none :=
        List.find?_eq_none.mpr fun j hj heq =>
          hfirst j hj (hkey.trans (of_decide_eq_true heq).symm)
      rw [hafter, hnone, List.find?_cons, decide_eq_true hkey]
      exact hhit i List.mem_cons_self hkey hnext
    · have hsame := hmiss i List.mem_cons_self hkey hnext
      rw [hafter, hsame, List.find?_cons, decide_eq_false hkey]

namespace Group

variable {φ α : Type} {group : Group φ}

/-! ### Entries in the order of their names -/

theorem insertByName_perm (entry : Toml.Entry) (entries : List Toml.Entry) :
    (insertByName entry entries).Perm (entry :: entries) := by
  induction entries with
  | nil => exact .refl _
  | cons first rest ih =>
    rw [insertByName]
    split
    · exact .refl _
    · exact (ih.cons first).trans (.swap entry first rest)

theorem byName_perm (entries : List Toml.Entry) : (byName entries).Perm entries := by
  have hfold : ∀ sorted : List Toml.Entry,
      (entries.foldl (fun sorted entry => insertByName entry sorted) sorted).Perm
        (sorted ++ entries) := by
    induction entries with
    | nil =>
      intro sorted
      rw [List.append_nil]
      exact .refl _
    | cons entry rest ih =>
      intro sorted
      refine (ih _).trans (((insertByName_perm entry sorted).append_right rest).trans ?_)
      exact List.perm_middle.symm
  exact hfold []

theorem distinct_byName {entries : List Toml.Entry} (hkeys : Toml.Distinct entries) :
    Toml.Distinct (byName entries) :=
  ((byName_perm entries).map _).nodup_iff.mpr hkeys

/-- The order of entries with distinct keys does not decide what a key has. -/
theorem lookup?_byName {entries : List Toml.Entry} (hkeys : Toml.Distinct entries) (name : String) :
    Toml.lookup? name (byName entries) = Toml.lookup? name entries := by
  refine Option.ext fun entry => ?_
  rw [(distinct_byName hkeys).lookup?_eq_some_iff, hkeys.lookup?_eq_some_iff,
    (byName_perm entries).mem_iff]

/-- Each field has one item at most. -/
theorem pairwise_zip {fields : List φ} (hfields : fields.Nodup)
    (items : List (Toml.Span × Toml.Value)) :
    (fields.zip items).Pairwise fun first second => first.1 ≠ second.1 := by
  induction fields generalizing items with
  | nil => exact .nil
  | cons field rest ih =>
    cases items with
    | nil => exact .nil
    | cons item others =>
      obtain ⟨hnot, hrest⟩ := List.nodup_cons.mp hfields
      refine .cons ?_ (ih hrest others)
      rintro ⟨_, other⟩ hpair rfl
      exact hnot (List.of_mem_zip hpair).1

/-! ### One field of a section -/

/-- What entries give for a field. -/
def inTable? (group : Group φ) (field : φ) (entries : List Toml.Entry) : Option Toml.Value :=
  (Toml.lookup? (group.key field) entries).map fun entry => entry.2.2

/-- Among the fields of a section, one alone changes a part of the settings. -/
structure Settles (group : Group φ) (field : φ) (get : Settings → α)
    (update : Toml.Value → α → α) : Prop where
  nodup : group.fields.Nodup
  mem : field ∈ group.fields
  key_inj : ∀ other ∈ group.fields, group.key other = group.key field → other = field
  hit : ∀ {settings after span value}, value.Keyed →
    group.fill settings field span value = .ok after → get after = update value (get settings)
  miss : ∀ {other settings after span value}, other ≠ field →
    group.fill settings other span value = .ok after → get after = get settings

variable {field : φ} {get : Settings → α} {update : Toml.Value → α → α}
  {settings after : Settings}

/-- An entry fills the field with its key. -/
theorem Settles.readEntry_eq (h : group.Settles field get update) {entry : Toml.Entry}
    (hkey : entry.1.text = group.key field) (settings : Settings) :
    group.readEntry settings entry = group.fill settings field entry.2.1 entry.2.2 := by
  have hfind : (group.fields.find? fun other => group.key other = entry.1.text) = some field := by
    cases hfound : group.fields.find? fun other => group.key other = entry.1.text with
    | none => exact absurd (decide_eq_true hkey.symm) (List.find?_eq_none.mp hfound field h.mem)
    | some other =>
      have hother : group.key other = entry.1.text := of_decide_eq_true (List.find?_some hfound :)
      rw [h.key_inj other (List.mem_of_find?_eq_some hfound) (hother.trans hkey)]
  rw [readEntry, hfind]

theorem Settles.get_readEntry (h : group.Settles field get update) {entry : Toml.Entry}
    (hkey : entry.1.text ≠ group.key field) (hread : group.readEntry settings entry = .ok after) :
    get after = get settings := by
  rw [readEntry] at hread
  split at hread
  · next other hfound =>
    have hother : group.key other = entry.1.text := of_decide_eq_true (List.find?_some hfound :)
    exact h.miss (fun heq => hkey (heq ▸ hother.symm)) hread
  · cases hread

theorem Settles.get_readEntries (h : group.Settles field get update) {entries : List Toml.Entry}
    (hkeyed : Toml.Keyed entries) (hread : group.readEntries settings entries = .ok after) :
    get after =
      (group.inTable? field entries).elim (get settings) fun value =>
        update value (get settings) := by
  rw [inTable?, ← lookup?_byName hkeyed.1, Toml.lookup?, Option.elim_map]
  refine get_foldlM (fun entry : Toml.Entry => entry.1.text) (group.key field)
    (fun entry => update entry.2.2) ?_ ?_ ?_ hread
  · intro entry hentry hkey settings after hstep
    rw [h.readEntry_eq hkey] at hstep
    exact h.hit (hkeyed.2 entry ((byName_perm entries).mem_iff.mp hentry)) hstep
  · intro entry _ hkey settings after hstep
    exact h.get_readEntry hkey hstep
  · exact List.pairwise_map.mp (distinct_byName hkeyed.1)

/-- A part of the settings that no field of a section changes stays as it is. -/
theorem get_read_of_forall
    (h : ∀ {field settings after span value}, group.fill settings field span value = .ok after →
      get after = get settings)
    {span : Toml.Span} {value : Toml.Value} (hread : group.read settings span value = .ok after) :
    get after = get settings := by
  cases value with
  | table origin entries =>
    refine get_foldlM_of_forall (fun {settings after entry} hstep => ?_) hread
    rw [readEntry] at hstep
    split at hstep
    · exact h hstep
    · cases hstep
  | array ofTables items => exact get_foldlM_of_forall h hread
  | text | integer | floating | boolean | unheld | moment => cases hread

variable [DecidableEq φ]

/-- What items give for a field. -/
def inList? (group : Group φ) (field : φ) (items : List (Toml.Span × Toml.Value)) :
    Option Toml.Value :=
  ((group.fields.zip items).find? fun item => item.1 = field).map fun item => item.2.2

/-- What a table, or a list in place of one, gives for a field. -/
def given? (group : Group φ) (field : φ) : Toml.Value → Option Toml.Value
  | .table _ entries => group.inTable? field entries
  | .array _ items => group.inList? field items
  | _ => none

theorem Settles.get_readItems (h : group.Settles field get update)
    {items : List (Toml.Span × Toml.Value)} (hkeyed : ∀ item ∈ items, item.2.Keyed)
    (hread : group.readItems settings items = .ok after) :
    get after =
      (group.inList? field items).elim (get settings) fun value => update value (get settings) := by
  rw [inList?, Option.elim_map]
  refine get_foldlM Prod.fst field (fun item => update item.2.2) ?_ ?_ ?_ hread
  · rintro item hitem rfl settings after hstep
    exact h.hit (hkeyed item.2 (List.of_mem_zip hitem).2) hstep
  · intro item _ hfield settings after hstep
    exact h.miss hfield hstep
  · exact pairwise_zip h.nodup items

/-- **What a field holds** after its section has been read: its value, if the section gives one. -/
theorem Settles.get_read (h : group.Settles field get update) {span : Toml.Span}
    {value : Toml.Value} (hkeyed : value.Keyed)
    (hread : group.read settings span value = .ok after) :
    get after =
      (group.given? field value).elim (get settings) fun value => update value (get settings) := by
  cases value with
  | table origin entries => exact h.get_readEntries (Toml.keyed_table.mp hkeyed) hread
  | array ofTables items => exact h.get_readItems (Toml.keyed_array.mp hkeyed) hread
  | text | integer | floating | boolean | unheld | moment => cases hread

end Group

/-! ### The fields -/

/-- The text a value stands for. -/
def text? : Toml.Value → Option String
  | .text value => some value
  | _ => none

/-- The truth value a value stands for. -/
def truth? : Toml.Value → Option Bool
  | .boolean value => some value
  | _ => none

/-- The width a value stands for. -/
def width? : Toml.Value → Option Nat
  | .integer value => some value.toNat
  | _ => none

theorem text?_of_readText {wanted text : String} {span : Toml.Span} {value : Toml.Value}
    (h : readText wanted span value = .ok text) : text? value = some text := by
  cases value with
  | text value => exact congrArg some (Except.ok.inj h)
  | integer | floating | boolean | unheld | moment | array | table => cases h

theorem truth?_of_readTruth {truth : Bool} {span : Toml.Span} {value : Toml.Value}
    (h : readTruth span value = .ok truth) : truth? value = some truth := by
  cases value with
  | boolean value => exact congrArg some (Except.ok.inj h)
  | text | integer | floating | unheld | moment | array | table => cases h

theorem width?_of_readWidth {width : Nat} {span : Toml.Span} {value : Toml.Value}
    (h : readWidth span value = .ok width) : width? value = some width := by
  cases value with
  | integer value =>
    rw [readWidth] at h
    split at h
    · exact congrArg some (Except.ok.inj h)
    · split at h <;> cases h
  | text | floating | boolean | unheld | moment | array | table => cases h

section Fields

variable {settings after : Settings} {span : Toml.Span} {value : Toml.Value}

/-- What the field of the section on the schema document changes. -/
theorem fill_input {field : InputField}
    (h : inputGroup.fill settings field span value = .ok after) :
    ∃ path, text? value = some path ∧ after = { settings with inputPath := path } := by
  obtain ⟨path, hpath, hafter⟩ := bind_eq_ok.mp h
  exact ⟨path, text?_of_readText hpath, (Except.ok.inj hafter).symm⟩

theorem fill_indent (h : outputGroup.fill settings .indent span value = .ok after) :
    ∃ width, width? value = some width ∧ after = { settings with indent := width } := by
  obtain ⟨width, hwidth, hafter⟩ := bind_eq_ok.mp h
  exact ⟨width, width?_of_readWidth hwidth, (Except.ok.inj hafter).symm⟩

theorem fill_exported (h : outputGroup.fill settings .exported span value = .ok after) :
    ∃ exported, truth? value = some exported ∧
      after = { settings with exported := exported } := by
  obtain ⟨exported, hexported, hafter⟩ := bind_eq_ok.mp h
  exact ⟨exported, truth?_of_readTruth hexported, (Except.ok.inj hafter).symm⟩

theorem fill_header (h : outputGroup.fill settings .header span value = .ok after) :
    ∃ header, text? value = some header ∧ after = { settings with header := some header } := by
  obtain ⟨header, hheader, hafter⟩ := bind_eq_ok.mp h
  exact ⟨header, text?_of_readText hheader, (Except.ok.inj hafter).symm⟩

/-- The section on the declarations leaves the path of the schema document alone. -/
theorem inputPath_of_fill {field : OutputField}
    (h : outputGroup.fill settings field span value = .ok after) :
    after.inputPath = settings.inputPath := by
  cases field with
  | indent =>
    obtain ⟨_, -, rfl⟩ := fill_indent h
    rfl
  | exported =>
    obtain ⟨_, -, rfl⟩ := fill_exported h
    rfl
  | header =>
    obtain ⟨_, -, rfl⟩ := fill_header h
    rfl

end Fields

theorem settles_inputPath :
    inputGroup.Settles .path Settings.inputPath fun value path => (text? value).getD path where
  nodup := by decide
  mem := by decide
  key_inj other _ _ := by cases other; rfl
  hit _ h := by
    obtain ⟨path, hpath, rfl⟩ := fill_input h
    rw [hpath, Option.getD_some]
  miss {other _ _ _ _} hne _ := by cases other; exact absurd rfl hne

theorem settles_indent :
    outputGroup.Settles .indent Settings.indent fun value indent => (width? value).getD indent where
  nodup := by decide
  mem := by decide
  key_inj := by decide
  hit _ h := by
    obtain ⟨width, hwidth, rfl⟩ := fill_indent h
    rw [hwidth, Option.getD_some]
  miss {other _ _ _ _} hne h := by
    cases other with
    | indent => exact absurd rfl hne
    | exported =>
      obtain ⟨_, -, rfl⟩ := fill_exported h
      rfl
    | header =>
      obtain ⟨_, -, rfl⟩ := fill_header h
      rfl

theorem settles_exported :
    outputGroup.Settles .exported Settings.exported
      fun value exported => (truth? value).getD exported where
  nodup := by decide
  mem := by decide
  key_inj := by decide
  hit _ h := by
    obtain ⟨exported, hexported, rfl⟩ := fill_exported h
    rw [hexported, Option.getD_some]
  miss {other _ _ _ _} hne h := by
    cases other with
    | indent =>
      obtain ⟨_, -, rfl⟩ := fill_indent h
      rfl
    | exported => exact absurd rfl hne
    | header =>
      obtain ⟨_, -, rfl⟩ := fill_header h
      rfl

theorem settles_header :
    outputGroup.Settles .header Settings.header fun value header => (text? value).or header where
  nodup := by decide
  mem := by decide
  key_inj := by decide
  hit _ h := by
    obtain ⟨header, hheader, rfl⟩ := fill_header h
    rw [hheader, Option.some_or]
  miss {other _ _ _ _} hne h := by
    cases other with
    | indent =>
      obtain ⟨_, -, rfl⟩ := fill_indent h
      rfl
    | exported =>
      obtain ⟨_, -, rfl⟩ := fill_exported h
      rfl
    | header => exact absurd rfl hne

/-! ### The layer of a text -/

section Sections

variable {α φ : Type} {field : φ} {get : Settings → α} {update : Toml.Value → α → α}

/-- What a field of the section on the schema document settles, its section settles. -/
theorem settles_input {field : InputField} (h : inputGroup.Settles field get update)
    (hothers : ∀ {field settings after span value},
      outputGroup.fill settings field span value = .ok after → get after = get settings) :
    rootGroup.Settles .input get fun said before =>
      (inputGroup.given? field said).elim before fun value => update value before where
  nodup := by decide
  mem := by decide
  key_inj := by decide
  hit hkeyed hread := h.get_read hkeyed hread
  miss {other _ _ _ _} hne hread := by
    cases other with
    | input => exact absurd rfl hne
    | output => exact Group.get_read_of_forall hothers hread

/-- What a field of the section on the declarations settles, its section settles. -/
theorem settles_output {field : OutputField} (h : outputGroup.Settles field get update)
    (hothers : ∀ {field settings after span value},
      inputGroup.fill settings field span value = .ok after → get after = get settings) :
    rootGroup.Settles .output get fun said before =>
      (outputGroup.given? field said).elim before fun value => update value before where
  nodup := by decide
  mem := by decide
  key_inj := by decide
  hit hkeyed hread := h.get_read hkeyed hread
  miss {other _ _ _ _} hne hread := by
    cases other with
    | input => exact Group.get_read_of_forall hothers hread
    | output => exact absurd rfl hne

end Sections

/-- What the entries of a text say. -/
def Layer.ofEntries (entries : List Toml.Entry) : Layer :=
  let input := rootGroup.inTable? .input entries
  let output := rootGroup.inTable? .output entries
  { inputPath := (input.bind (inputGroup.given? .path)).bind text?
    indent := (output.bind (outputGroup.given? .indent)).bind width?
    exported := (output.bind (outputGroup.given? .exported)).bind truth?
    header := (output.bind (outputGroup.given? .header)).bind text? }

/-- A value that is looked for in three steps, each of which may fail. -/
theorem elim_elim {α β γ δ : Type} (k : Option γ → δ) (found : Option α) (f : α → Option β)
    (g : β → Option γ) :
    (found.elim (k none) fun a => (f a).elim (k none) fun b => k (g b)) =
      k ((found.bind f).bind g) := by
  cases found with
  | none => rfl
  | some a =>
    rw [Option.elim_some, Option.bind_some]
    cases f a <;> rfl

/-- **The settings of a text** are the standard ones with what the text says over them. -/
theorem eq_over_of_ofText {text : List Char} {settings : Settings}
    (h : ofText text = .ok settings) :
    ∃ entries, Toml.readDocument? text = some entries ∧
      settings = (Layer.ofEntries entries).over standard := by
  rw [ofText] at h
  split at h
  · cases h
  · next entries hentries =>
    have hkeyed := Toml.readDocument?_keyed hentries
    have hpath := (settles_input settles_inputPath inputPath_of_fill).get_readEntries hkeyed h
    have hindent := (settles_output settles_indent ?_).get_readEntries hkeyed h
    have hexported := (settles_output settles_exported ?_).get_readEntries hkeyed h
    have hheader := (settles_output settles_header ?_).get_readEntries hkeyed h
    · refine ⟨entries, hentries, ?_⟩
      obtain ⟨inputPath, indent, exported, header⟩ := settings
      rw [Layer.over, mk.injEq]
      exact ⟨hpath.trans (elim_elim (·.getD standard.inputPath) _ _ text?),
        hindent.trans (elim_elim (·.getD standard.indent) _ _ width?),
        hexported.trans (elim_elim (·.getD standard.exported) _ _ truth?),
        hheader.trans (elim_elim (·.or standard.header) _ _ text?)⟩
    all_goals
      intro field settings after span value hfill
      obtain ⟨_, -, rfl⟩ := fill_input hfill
      rfl

end Settings

end SchemaTypes
