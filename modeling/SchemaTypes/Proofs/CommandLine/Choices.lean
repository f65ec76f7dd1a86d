import SchemaTypes.CommandLine.Request
import SchemaTypes.Proofs.Json.Record
import Mathlib.Data.List.Pairwise

/-!
# What a call chooses

A call of the command that writes declarations makes choices, one with each option, and the flags
are what the choices come to. Only the names of definitions and the wish to be told more may come
more than once, so neither the order of the options nor how often these two are repeated changes
what is chosen.

## Main definitions

* `CommandLine.Choice`: what one option chooses
* `CommandLine.Event.choice?`: the choice an event makes
* `CommandLine.Once`: nothing is chosen twice that may be chosen once
* `CommandLine.IsCall`: arguments call the command and make some choices
* `CommandLine.GenerateFlags.ofChoices`: what choices come to

## Main results

* `CommandLine.ofArguments_eq_generate_iff`: the arguments that call the command
* `CommandLine.Once.findSome?_congr`: the order of what is given once does not show
-/

namespace SchemaTypes

namespace CommandLine

open Json (bind_eq_ok map_eq_ok)

/-- What one option of the command that writes declarations chooses. -/
inductive Choice
  | config (path : String)
  | input (path : String)
  | definition (name : String)
  | unexported
  | indent (width : Nat)
  | header (text : String)
  | verbose
deriving DecidableEq

/-- Whether a field may be given more than once. -/
def GenerateField.isRepeatable : GenerateField → Bool
  | .definition => true
  | .verbose => true
  | _ => false

namespace Choice

/-- The field that a choice fills. -/
def field : Choice → GenerateField
  | config _ => .config
  | input _ => .input
  | definition _ => .definition
  | unexported => .exported
  | indent _ => .indent
  | header _ => .header
  | verbose => .verbose

/-- The choice that a value for a field makes, if it is one the field takes. -/
def ofValue? : GenerateField → String → Option Choice
  | .config, value => if value = "" then none else some (config value)
  | .input, value => if value = "" then none else some (input value)
  | .definition, value => some (definition value)
  | .exported, _ => some unexported
  | .indent, value => (width? value.toList).map indent
  | .header, value => some (header value)
  | .verbose, _ => some verbose
  | .help, _ => none

/-- The flags with one choice more. -/
def apply (flags : GenerateFlags) : Choice → GenerateFlags
  | config path => { flags with config := path }
  | input path => { flags with input := some path }
  | definition name => { flags with definitions := flags.definitions ++ [name] }
  | unexported => { flags with exported := false }
  | indent width => { flags with indent := some width }
  | header text => { flags with header := some text }
  | verbose => flags

/-! ### What a choice says -/

def config? : Choice → Option String
  | config path => some path
  | _ => none

def input? : Choice → Option String
  | input path => some path
  | _ => none

def definition? : Choice → Option String
  | definition name => some name
  | _ => none

def indent? : Choice → Option Nat
  | indent width => some width
  | _ => none

def header? : Choice → Option String
  | header text => some text
  | _ => none

end Choice

/-- The choice an event makes. Words and misuses make none. -/
def Event.choice? : Event GenerateField → Option Choice
  | .given switch value => Choice.ofValue? switch.field value
  | _ => none

/-- Two choices may stand in one call: they are of different fields, or of one that may be given
more than once. -/
def Choice.Compatible (first second : Choice) : Prop :=
  first.field = second.field → first.field.isRepeatable = true

instance : Std.Symm Choice.Compatible where
  symm _ _ h heq := heq ▸ h heq.symm

instance (first second : Choice) : Decidable (first.Compatible second) :=
  inferInstanceAs (Decidable (first.field = second.field → first.field.isRepeatable = true))

/-- Nothing is chosen twice that may be chosen once. -/
def Once (choices : List Choice) : Prop :=
  choices.Pairwise Choice.Compatible

instance (choices : List Choice) : Decidable (Once choices) :=
  inferInstanceAs (Decidable (choices.Pairwise Choice.Compatible))

/-- Arguments call the command that writes declarations and make some choices. In front of the
command they may ask to be told more. -/
def IsCall (arguments : List String) (choices : List Choice) : Prop :=
  ∃ front behind rest,
    events topSwitches none arguments = front ++ .word "generate" behind :: rest ∧
    (∀ event ∈ front, ∃ switch value, event = .given switch value ∧ switch.field = .verbose) ∧
    (events generateGrammar.switches none behind).map Event.choice? = choices.map some ∧
    Once choices

/-- What choices come to. -/
def GenerateFlags.ofChoices (choices : List Choice) : GenerateFlags where
  config := (choices.findSome? Choice.config?).getD standardConfig
  input := choices.findSome? Choice.input?
  definitions := choices.filterMap Choice.definition?
  exported := decide (.unexported ∉ choices)
  indent := choices.findSome? Choice.indent?
  header := choices.findSome? Choice.header?

/-! ### The options that events hold -/

section Events

variable {φ : Type} {switches : List (Switch φ)} {switch : Switch φ} {value : String}

theorem mem_of_given_mem_singleton {found : Switch φ} {other : String}
    (hfound : found ∈ switches) (h : .given switch value ∈ [Event.given found other]) :
    switch ∈ switches := by
  obtain ⟨rfl, -⟩ := Event.given.inj (List.mem_singleton.mp h)
  exact hfound

theorem mem_of_mem_letterEvents {letters : List Char} :
    (∀ {value}, .given switch value ∈ (letterEvents switches letters).1 → switch ∈ switches) ∧
      ((letterEvents switches letters).2 = some switch → switch ∈ switches) := by
  induction letters with
  | nil => exact ⟨fun h => absurd h List.not_mem_nil, fun h => nomatch h⟩
  | cons letter rest ih =>
    rw [letterEvents.eq_def]
    dsimp only
    split
    · exact ⟨fun h => (nomatch List.mem_singleton.mp h), fun h => nomatch h⟩
    · next found hfound =>
      have hmem : found ∈ switches := List.mem_of_find?_eq_some hfound
      split
      · split
        · exact ⟨fun h => absurd h List.not_mem_nil, fun h => Option.some.inj h ▸ hmem⟩
        · exact ⟨mem_of_given_mem_singleton hmem, fun h => nomatch h⟩
      · refine ⟨fun h => ?_, ih.2⟩
        rcases List.mem_cons.mp h with hfirst | hothers
        · exact mem_of_given_mem_singleton hmem (List.mem_singleton.mpr hfirst)
        · exact ih.1 hothers

theorem mem_of_mem_longEvents {name : List Char} {given : Option (List Char)} :
    (∀ {value}, .given switch value ∈ (longEvents switches name given).1 → switch ∈ switches) ∧
      ((longEvents switches name given).2 = some switch → switch ∈ switches) := by
  rw [longEvents]
  split
  · exact ⟨fun h => (nomatch List.mem_singleton.mp h), fun h => nomatch h⟩
  · next found hfound =>
    have hmem : found ∈ switches := List.mem_of_find?_eq_some hfound
    split
    · exact ⟨mem_of_given_mem_singleton hmem, fun h => nomatch h⟩
    · exact ⟨fun h => absurd h List.not_mem_nil, fun h => Option.some.inj h ▸ hmem⟩
    · exact ⟨fun h => (nomatch List.mem_singleton.mp h), fun h => nomatch h⟩
    · exact ⟨mem_of_given_mem_singleton hmem, fun h => nomatch h⟩

/-- The options in the events of arguments are those there are. -/
theorem mem_of_mem_events {waiting : Option (Switch φ)} {arguments : List String}
    (hwaiting : ∀ switch, waiting = some switch → switch ∈ switches)
    (h : .given switch value ∈ events switches waiting arguments) : switch ∈ switches := by
  induction arguments generalizing waiting with
  | nil =>
    cases waiting with
    | none => exact absurd h List.not_mem_nil
    | some found => exact nomatch List.mem_singleton.mp h
  | cons argument rest ih =>
    have hnone : ∀ switch, (none : Option (Switch φ)) = some switch → switch ∈ switches :=
      fun _ heq => nomatch heq
    cases waiting with
    | some found =>
      rw [events] at h
      split at h
      · rcases List.mem_cons.mp h with hfirst | hothers
        · exact mem_of_given_mem_singleton (hwaiting found rfl) (List.mem_singleton.mpr hfirst)
        · exact ih hnone hothers
      · exact nomatch List.mem_singleton.mp h
    | none =>
      rw [events] at h
      split at h
      · obtain ⟨_, -, heq⟩ := List.mem_map.mp h
        cases heq
      · rcases List.mem_cons.mp h with hfirst | hothers
        · cases hfirst
        · exact ih hnone hothers
      · rcases List.mem_append.mp h with hsaid | hothers
        · exact mem_of_mem_longEvents.1 hsaid
        · exact ih (fun _ => mem_of_mem_longEvents.2) hothers
      · rcases List.mem_append.mp h with hsaid | hothers
        · exact mem_of_mem_letterEvents.1 hsaid
        · exact ih (fun _ => mem_of_mem_letterEvents.2) hothers

end Events

/-! ### One choice after another -/

/-- An option goes on with the choice it makes, and ends the reading if it makes none. -/
theorem fill_eq (flags : GenerateFlags) (field : GenerateField) (value : String) :
    generateGrammar.fill flags field value =
      match Choice.ofValue? field value with
      | some choice => .ok (choice.apply flags)
      | none => .error (if field = .help then .help else badValue value) := by
  cases field with
  | config | input =>
    by_cases hvalue : value = ""
    · subst hvalue
      rfl
    · simp only [generateGrammar, readPath, Choice.ofValue?, if_neg hvalue]
      rfl
  | indent =>
    simp only [generateGrammar, readWidth, Choice.ofValue?]
    cases width? value.toList <;> rfl
  | definition | exported | header | verbose | help => rfl

theorem Choice.field_eq {field : GenerateField} {value : String} {choice : Choice}
    (h : ofValue? field value = some choice) : choice.field = field := by
  cases field with
  | config | input =>
    rw [ofValue?, Option.ite_none_left_eq_some, Option.some.injEq] at h
    rw [← h.2]
    rfl
  | indent =>
    obtain ⟨width, -, rfl⟩ := Option.map_eq_some_iff.mp h
    rfl
  | definition | exported | header | verbose =>
    cases h
    rfl
  | help => cases h

/-- An option of the command may be repeated exactly if its field may. -/
theorem repeatable_eq {switch : Switch GenerateField} (h : switch ∈ generateGrammar.switches) :
    switch.repeatable = switch.field.isRepeatable := by
  have hall : ∀ switch ∈ generateGrammar.switches,
      switch.repeatable = switch.field.isRepeatable := by decide
  exact hall switch h

/-- One event makes one choice. -/
theorem step_eq_ok_iff {flags : GenerateFlags} {seen : List GenerateField}
    {next : GenerateFlags × List GenerateField} {event : Event GenerateField}
    (h : ∀ switch value, event = .given switch value → switch ∈ generateGrammar.switches) :
    generateGrammar.step (flags, seen) event = .ok next ↔
      ∃ choice, event.choice? = some choice ∧
        (choice.field ∈ seen → choice.field.isRepeatable = true) ∧
        next = (choice.apply flags, choice.field :: seen) := by
  cases event with
  | given switch value =>
    rw [Grammar.step, repeatable_eq (h switch value rfl), fill_eq, Event.choice?]
    cases hchoice : Choice.ofValue? switch.field value with
    | none =>
      refine iff_of_false ?_ (by simp)
      split <;> exact fun h => nomatch h
    | some choice =>
      rw [← Choice.field_eq hchoice]
      constructor
      · intro hstep
        split at hstep
        · cases hstep
        · next hfree =>
          refine ⟨choice, rfl, fun hseen => ?_, (Except.ok.inj hstep).symm⟩
          cases hrepeatable : choice.field.isRepeatable with
          | true => rfl
          | false => exact absurd (by simp [hrepeatable, hseen]) hfree
      · rintro ⟨_, ⟨⟩, hfree, rfl⟩
        refine if_neg fun hagain => ?_
        rw [Bool.and_eq_true, Bool.not_eq_true', List.contains_iff_mem] at hagain
        exact Bool.false_ne_true (hagain.1.symm.trans (hfree hagain.2))
  | word content behind => exact iff_of_false (fun h => nomatch h) (by simp [Event.choice?])
  | operand content => exact iff_of_false (fun h => nomatch h) (by simp [Event.choice?])
  | misuse cause => exact iff_of_false (fun h => nomatch h) (by simp [Event.choice?])

/-- Events one after another make their choices, none of them again that may be made once. -/
theorem foldlM_step_eq_ok_iff {flags result : GenerateFlags} {seen : List GenerateField}
    {said : List (Event GenerateField)}
    (h : ∀ switch value, .given switch value ∈ said → switch ∈ generateGrammar.switches) :
    (∃ fields, said.foldlM generateGrammar.step (flags, seen) = .ok (result, fields)) ↔
      ∃ choices : List Choice, said.map Event.choice? = choices.map some ∧ Once choices ∧
        (∀ choice ∈ choices, choice.field ∈ seen → choice.field.isRepeatable = true) ∧
        result = choices.foldl Choice.apply flags := by
  induction said generalizing flags seen with
  | nil =>
    constructor
    · rintro ⟨fields, hfields⟩
      cases hfields
      exact ⟨[], rfl, .nil, fun _ hmem => absurd hmem List.not_mem_nil, rfl⟩
    · rintro ⟨choices, hchoices, -, -, rfl⟩
      rw [List.map_eq_nil_iff.mp hchoices.symm]
      exact ⟨seen, rfl⟩
  | cons event rest ih =>
    have hevent : ∀ switch value, event = .given switch value →
        switch ∈ generateGrammar.switches :=
      fun switch value heq => h switch value (heq ▸ List.mem_cons_self)
    have hrest := fun switch value hmem => h switch value (List.mem_cons_of_mem event hmem)
    simp only [List.foldlM_cons, bind_eq_ok, step_eq_ok_iff hevent]
    constructor
    · rintro ⟨fields, next, ⟨choice, hchoice, hfree, rfl⟩, hfields⟩
      obtain ⟨choices, hmap, honce, hothers, rfl⟩ := (ih hrest).mp ⟨fields, hfields⟩
      refine ⟨choice :: choices, ?_, .cons (fun other hother hfield => ?_) honce, ?_, rfl⟩
      · rw [List.map_cons, List.map_cons, hchoice, hmap]
      · rw [hfield]
        exact hothers other hother (hfield ▸ List.mem_cons_self)
      · refine List.forall_mem_cons.mpr ⟨hfree, fun other hother hseen => ?_⟩
        exact hothers other hother (List.mem_cons_of_mem _ hseen)
    · rintro ⟨choices, hmap, honce, hfree, rfl⟩
      cases choices with
      | nil => cases hmap
      | cons choice choices =>
        obtain ⟨hchoice, hmap⟩ := List.cons.inj hmap
        obtain ⟨hfirst, honce⟩ := List.pairwise_cons.mp honce
        obtain ⟨hchoicefree, hfree⟩ := List.forall_mem_cons.mp hfree
        have hothers : ∀ other ∈ choices, other.field ∈ choice.field :: seen →
            other.field.isRepeatable = true := by
          intro other hother hseen
          rcases List.mem_cons.mp hseen with hfield | hseen
          · exact hfield ▸ hfirst other hother hfield.symm
          · exact hfree other hother hseen
        obtain ⟨fields, hfields⟩ := (ih hrest).mpr ⟨choices, hmap, honce, hothers, rfl⟩
        exact ⟨fields, _, ⟨choice, hchoice, hchoicefree, rfl⟩, hfields⟩

/-! ### What choices come to -/

section Once

variable {α : Type} {choices others : List Choice}

theorem Once.reverse (h : Once choices) : Once choices.reverse :=
  List.pairwise_reverse.mpr (List.Pairwise.imp symm h)

/-- Of the choices of a field that may be given once there is one. -/
theorem Once.eq_of_field_eq (h : Once choices) {first second : Choice} (hfirst : first ∈ choices)
    (hsecond : second ∈ choices) (hfield : first.field = second.field)
    (honce : first.field.isRepeatable = false) : first = second := by
  by_contra hne
  have hcompatible : first.Compatible second := List.Pairwise.forall h hfirst hsecond hne
  exact Bool.false_ne_true (honce.symm.trans (hcompatible hfield))

/-- What is said of a field is said of it by one choice of a field that may be given once. -/
structure Tells (get? : Choice → Option α) (field : GenerateField) : Prop where
  field_eq : ∀ {choice a}, get? choice = some a → choice.field = field
  once : field.isRepeatable = false

theorem Once.findSome?_eq_some_iff (h : Once choices) {get? : Choice → Option α}
    {field : GenerateField} (htells : Tells get? field) {a : α} :
    choices.findSome? get? = some a ↔ ∃ choice ∈ choices, get? choice = some a := by
  refine ⟨List.exists_of_findSome?_eq_some, ?_⟩
  rintro ⟨choice, hchoice, ha⟩
  cases hfound : choices.findSome? get? with
  | none =>
    rw [List.findSome?_eq_none_iff.mp hfound choice hchoice] at ha
    cases ha
  | some b =>
    obtain ⟨other, hother, hb⟩ := List.exists_of_findSome?_eq_some hfound
    have heq : choice = other := by
      refine h.eq_of_field_eq hchoice hother ?_ ?_
      · rw [htells.field_eq ha, htells.field_eq hb]
      · rw [htells.field_eq ha]
        exact htells.once
    rw [← hb, ← heq, ha]

/-- What is said of a field hangs on which choices are made alone. -/
theorem Once.findSome?_congr (h : Once choices) (hothers : Once others)
    (hsame : ∀ choice, choice ∈ choices ↔ choice ∈ others) {get? : Choice → Option α}
    {field : GenerateField} (htells : Tells get? field) :
    choices.findSome? get? = others.findSome? get? := by
  refine Option.ext fun a => ?_
  rw [h.findSome?_eq_some_iff htells, hothers.findSome?_eq_some_iff htells]
  exact exists_congr fun choice => and_congr_left' (hsame choice)

theorem Choice.config?_eq_some {choice : Choice} {path : String} :
    choice.config? = some path ↔ choice = .config path := by
  cases choice <;> simp [config?]

theorem Choice.input?_eq_some {choice : Choice} {path : String} :
    choice.input? = some path ↔ choice = .input path := by
  cases choice <;> simp [input?]

theorem Choice.indent?_eq_some {choice : Choice} {width : Nat} :
    choice.indent? = some width ↔ choice = .indent width := by
  cases choice <;> simp [indent?]

theorem Choice.header?_eq_some {choice : Choice} {text : String} :
    choice.header? = some text ↔ choice = .header text := by
  cases choice <;> simp [header?]

theorem tells_config : Tells Choice.config? .config where
  field_eq h := Choice.config?_eq_some.mp h ▸ rfl
  once := rfl

theorem tells_input : Tells Choice.input? .input where
  field_eq h := Choice.input?_eq_some.mp h ▸ rfl
  once := rfl

theorem tells_indent : Tells Choice.indent? .indent where
  field_eq h := Choice.indent?_eq_some.mp h ▸ rfl
  once := rfl

theorem tells_header : Tells Choice.header? .header where
  field_eq h := Choice.header?_eq_some.mp h ▸ rfl
  once := rfl

end Once

section Flags

variable {choices : List Choice}

/-- The last choice that says something of a part of the flags settles it. -/
theorem get_foldl_apply {α β : Type} (get : GenerateFlags → β) (get? : Choice → Option α)
    (set : α → β)
    (h : ∀ flags choice, get (Choice.apply flags choice) = (get? choice).elim (get flags) set)
    (flags : GenerateFlags) :
    get (choices.foldl Choice.apply flags) =
      (choices.reverse.findSome? get?).elim (get flags) set := by
  induction choices generalizing flags with
  | nil => rfl
  | cons choice rest ih =>
    rw [List.foldl_cons, ih, h, List.reverse_cons, List.findSome?_append]
    cases rest.reverse.findSome? get? with
    | some a => rfl
    | none =>
      rw [Option.none_or, List.findSome?_singleton]
      rfl

theorem definitions_foldl_apply (choices : List Choice) (flags : GenerateFlags) :
    (choices.foldl Choice.apply flags).definitions =
      flags.definitions ++ choices.filterMap Choice.definition? := by
  induction choices generalizing flags with
  | nil => exact (List.append_nil _).symm
  | cons choice rest ih =>
    rw [List.foldl_cons, ih]
    cases choice with
    | definition name =>
      exact List.append_assoc flags.definitions [name] _
    | config | input | unexported | indent | header | verbose => rfl

theorem exported_foldl_apply (choices : List Choice) (flags : GenerateFlags) :
    (choices.foldl Choice.apply flags).exported =
      (flags.exported && decide (.unexported ∉ choices)) := by
  induction choices generalizing flags with
  | nil => simp
  | cons choice rest ih =>
    rw [List.foldl_cons, ih]
    cases choice <;> simp [Choice.apply]

/-- What only one choice says, that choice settles. -/
theorem Once.get_foldl_apply (hchoices : Once choices) {α β : Type} (get : GenerateFlags → β)
    (set : α → β) {get? : Choice → Option α} {field : GenerateField} (htells : Tells get? field)
    (h : ∀ flags choice, get (Choice.apply flags choice) = (get? choice).elim (get flags) set)
    (flags : GenerateFlags) :
    get (choices.foldl Choice.apply flags) =
      (choices.findSome? get?).elim (get flags) set := by
  rw [CommandLine.get_foldl_apply get get? set h,
    hchoices.reverse.findSome?_congr hchoices (fun _ => List.mem_reverse) htells]

/-- **What a call comes to**: its choices, one after another, leave the flags they say. -/
theorem foldl_apply_eq (h : Once choices) :
    choices.foldl Choice.apply generateGrammar.start = .ofChoices choices := by
  have hconfig := h.get_foldl_apply GenerateFlags.config id tells_config
    (fun _ choice => by cases choice <;> rfl) generateGrammar.start
  have hinput := h.get_foldl_apply GenerateFlags.input some tells_input
    (fun _ choice => by cases choice <;> rfl) generateGrammar.start
  have hindent := h.get_foldl_apply GenerateFlags.indent some tells_indent
    (fun _ choice => by cases choice <;> rfl) generateGrammar.start
  have hheader := h.get_foldl_apply GenerateFlags.header some tells_header
    (fun _ choice => by cases choice <;> rfl) generateGrammar.start
  have hdefinitions := definitions_foldl_apply choices generateGrammar.start
  have hexported := exported_foldl_apply choices generateGrammar.start
  generalize choices.foldl Choice.apply generateGrammar.start = flags at *
  obtain ⟨config, input, definitions, exported, indent, header⟩ := flags
  rw [GenerateFlags.ofChoices, GenerateFlags.mk.injEq]
  refine ⟨hconfig.trans ?_, hinput.trans ?_, hdefinitions, hexported, hindent.trans ?_,
    hheader.trans ?_⟩
  · cases choices.findSome? Choice.config? <;> rfl
  · cases choices.findSome? Choice.input? <;> rfl
  · cases choices.findSome? Choice.indent? <;> rfl
  · cases choices.findSome? Choice.header? <;> rfl

end Flags

/-! ### The arguments of a call -/

/-- The arguments behind the command come to the flags that their choices say. -/
theorem read_eq_ok_iff {arguments : List String} {flags : GenerateFlags} :
    generateGrammar.read arguments = .ok flags ↔
      ∃ choices : List Choice,
        (events generateGrammar.switches none arguments).map Event.choice? = choices.map some ∧
        Once choices ∧ flags = .ofChoices choices := by
  have hswitches : ∀ switch value,
      .given switch value ∈ events generateGrammar.switches none arguments →
        switch ∈ generateGrammar.switches :=
    fun _ _ => mem_of_mem_events fun _ heq => nomatch heq
  have hread : generateGrammar.read arguments = .ok flags ↔
      ∃ fields, (events generateGrammar.switches none arguments).foldlM generateGrammar.step
        (generateGrammar.start, []) = .ok (flags, fields) := by
    rw [Grammar.read, bind_eq_ok]
    constructor
    · rintro ⟨⟨result, fields⟩, hsteps, hresult⟩
      exact ⟨fields, Except.ok.inj hresult ▸ hsteps⟩
    · rintro ⟨fields, hsteps⟩
      exact ⟨(flags, fields), hsteps, rfl⟩
  rw [hread, foldlM_step_eq_ok_iff hswitches]
  refine exists_congr fun choices => and_congr_right fun _ => and_congr_right fun honce => ?_
  rw [foldl_apply_eq honce]
  exact ⟨fun h => h.2, fun h => ⟨fun _ _ hseen => absurd hseen List.not_mem_nil, h⟩⟩

theorem requestOf_eq_generate_iff {command : String} {arguments : List String}
    {flags : GenerateFlags} :
    requestOf command arguments = .ok (.generate flags) ↔
      command = "generate" ∧ generateGrammar.read arguments = .ok flags := by
  rw [requestOf]
  split
  · next hcommand =>
    rw [map_eq_ok]
    simp [hcommand]
  · next hcommand =>
    refine iff_of_false (fun h => ?_) (fun h => hcommand h.1)
    split at h
    · obtain ⟨_, -, heq⟩ := map_eq_ok.mp h
      cases heq
    · split at h
      · obtain ⟨shell, -, heq⟩ := bind_eq_ok.mp h
        cases shell <;> cases heq
      · split at h <;> cases h

/-- The first word is the command, in front of which a call may ask to be told more. -/
theorem requestOfEvents_eq_generate_iff {said : List (Event TopField)} {flags : GenerateFlags} :
    requestOfEvents said = .ok (.generate flags) ↔
      ∃ front behind rest, said = front ++ .word "generate" behind :: rest ∧
        (∀ event ∈ front, ∃ switch value, event = .given switch value ∧
          switch.field = .verbose) ∧
        generateGrammar.read behind = .ok flags := by
  constructor
  · intro h
    induction said with
    | nil => cases h
    | cons event rest ih =>
      cases event with
      | given switch value =>
        rw [requestOfEvents] at h
        split at h
        · next hfield =>
          obtain ⟨front, behind, others, rfl, hfront, hread⟩ := ih h
          refine ⟨.given switch value :: front, behind, others, rfl, ?_, hread⟩
          exact List.forall_mem_cons.mpr ⟨⟨switch, value, rfl, hfield⟩, hfront⟩
        · cases h
        · cases h
      | word command behind =>
        obtain ⟨rfl, hread⟩ := requestOf_eq_generate_iff.mp h
        exact ⟨[], behind, rest, rfl, fun _ hmem => absurd hmem List.not_mem_nil, hread⟩
      | operand | misuse => cases h
  · rintro ⟨front, behind, rest, rfl, hfront, hread⟩
    induction front with
    | nil => exact requestOf_eq_generate_iff.mpr ⟨rfl, hread⟩
    | cons event front ih =>
      obtain ⟨⟨switch, value, rfl, hfield⟩, hothers⟩ := List.forall_mem_cons.mp hfront
      rw [List.cons_append, requestOfEvents, hfield]
      exact ih hothers

/-- **The arguments that call the command** are those that make choices, and the flags of the call
are what the choices come to. -/
theorem ofArguments_eq_generate_iff {arguments : List String} {flags : GenerateFlags} :
    Request.ofArguments arguments = .ok (.generate flags) ↔
      ∃ choices, IsCall arguments choices ∧ flags = .ofChoices choices := by
  rw [Request.ofArguments, requestOfEvents_eq_generate_iff]
  constructor
  · rintro ⟨front, behind, rest, hsaid, hfront, hread⟩
    obtain ⟨choices, hchoices, honce, hflags⟩ := read_eq_ok_iff.mp hread
    exact ⟨choices, ⟨front, behind, rest, hsaid, hfront, hchoices, honce⟩, hflags⟩
  · rintro ⟨choices, ⟨front, behind, rest, hsaid, hfront, hchoices, honce⟩, hflags⟩
    have hread := read_eq_ok_iff.mpr ⟨choices, hchoices, honce, hflags⟩
    exact ⟨front, behind, rest, hsaid, hfront, hread⟩

end CommandLine

end SchemaTypes
