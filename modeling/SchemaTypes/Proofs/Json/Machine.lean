import SchemaTypes.Proofs.Json.Literal
import SchemaTypes.Proofs.Json.Tokens
import SchemaTypes.Proofs.Json.Written

/-!
# The value that a text writes

A text writes one value wherever it stands: alone, or as an entry of an object that is itself an
entry of another one. To see this the machine that builds trees is run twice, once on the tokens of
the text alone and once on the tokens of the text inside a longer one, with frames already open. The
second run goes step by step like the first, and whatever can be read in the tree of the first can
be read in the tree of the second.

## Main definitions

* `Json.Tree.Leads`, `Json.State.Leads`: what can be read in one tree can be read in the other
* `Json.written?`, `Json.Writes`: the value that a text writes, alone and wherever it stands
* `Json.RepeatsNoKey`: a text in which no object repeats a key
* `Json.entryText`: a text as the entry of an object

## Main results

* `Json.State.Leads.step`, `Json.State.Leads.run`: two runs of the machine
* `Json.writes_of_written?`: a text writes its value wherever it stands
* `Json.exists_written_of_ofText`: a text that reads as a value writes one
* `Json.Writes.entry`: the value of a text as the entry of an object
-/

namespace SchemaTypes

namespace Json

/-! ### A node that reads at least as well -/

/-- What a node writes, another one writes. -/
def Tree.Leads (tree later : Tree) : Prop :=
  ∀ value, tree.written = some value → later.Writes value

/-- What a key reads as, another one reads as. -/
structure Key.Leads (key later : Key) : Prop where
  reading : ∀ name, key.reading = .ok name → later.reading = .ok name
  checking : later.checking = .ok ()

/-- What an entry writes, another one writes. -/
structure EntryLeads (entry later : Key × Tree) : Prop where
  key : entry.1.Leads later.1
  tree : entry.2.Leads later.2

theorem Tree.leads_list {items others : List Tree} (h : List.Forall₂ Leads items others)
    {start stop place other : Nat} :
    Leads (.list start items (.closed stop)) (.list place others (.closed other)) := by
  have hitems : ∀ values, writtenItems items = some values →
      writtenItems others = some values ∧ checkItems others = .ok () := by
    induction h with
    | nil => exact fun values hvalues => ⟨hvalues, rfl⟩
    | @cons item other items others hitem hrest ih =>
      intro values hvalues
      obtain ⟨first, hfirst, hvalues⟩ := Option.bind_eq_some_iff.mp hvalues
      obtain ⟨more, hmore, hvalues⟩ := Option.bind_eq_some_iff.mp hvalues
      obtain ⟨hwritten, hcheck⟩ := hitem first hfirst
      obtain ⟨hwrittenItems, hcheckItems⟩ := ih more hmore
      rw [writtenItems, hwritten, hwrittenItems, checkItems, hcheck, hcheckItems]
      exact ⟨hvalues, rfl⟩
  intro value hvalue
  obtain ⟨values, hvalues, rfl⟩ := Option.map_eq_some_iff.mp hvalue
  obtain ⟨hwritten, hcheck⟩ := hitems values hvalues
  rw [Writes, written, hwritten, check, hcheck]
  exact ⟨rfl, rfl⟩

theorem Tree.leads_object {entries others : List (Key × Tree)}
    (h : List.Forall₂ EntryLeads entries others) {start stop place other : Nat} :
    Leads (.object start entries (.closed stop)) (.object place others (.closed other)) := by
  have hentries : ∀ values, writtenEntries entries = some values →
      writtenEntries others = some values ∧ checkEntries others = .ok () := by
    induction h with
    | nil => exact fun values hvalues => ⟨hvalues, rfl⟩
    | @cons entry other entries others hentry hrest ih =>
      intro values hvalues
      obtain ⟨name, hname, hvalues⟩ := Option.bind_eq_some_iff.mp hvalues
      obtain ⟨first, hfirst, hvalues⟩ := Option.bind_eq_some_iff.mp hvalues
      obtain ⟨more, hmore, hvalues⟩ := Option.bind_eq_some_iff.mp hvalues
      obtain ⟨hwritten, hcheck⟩ := hentry.tree first hfirst
      obtain ⟨hwrittenEntries, hcheckEntries⟩ := ih more hmore
      have hreading := hentry.key.reading name (toOption_eq_some.mp hname)
      rw [writtenEntries, hreading, hwritten, hwrittenEntries, checkEntries, hentry.key.checking,
        hcheck, hcheckEntries]
      exact ⟨hvalues, rfl⟩
  intro value hvalue
  obtain ⟨values, hvalues, rfl⟩ := Option.map_eq_some_iff.mp hvalue
  obtain ⟨hwritten, hcheck⟩ := hentries values hvalues
  rw [Writes, written, hwritten, check, hcheck]
  exact ⟨rfl, rfl⟩

/-! ### The machine in two places -/

/-- An open list or object that holds what leads to what another one holds. -/
inductive Frame.Leads : Frame → Frame → Prop
  | list (start place : Nat) {items others : List Tree}
      (hitems : List.Forall₂ Tree.Leads items others) :
      Leads (.list start items) (.list place others)
  | object (start place : Nat) {entries others : List (Key × Tree)} {key other : Key}
      (hentries : List.Forall₂ EntryLeads entries others) (hkey : key.Leads other) :
      Leads (.object start entries key) (.object place others other)

/-- A state of the machine, and one with more frames open below: both wait for the same, and what
the first one holds leads to what the second one holds. -/
inductive State.Leads (base : List Frame) : State → State → Prop
  | value {frames later : List Frame} (hframes : List.Forall₂ Frame.Leads frames later) :
      Leads base (.value frames) (.value (later ++ base))
  | item (start place : Nat) {items others : List Tree} {frames later : List Frame}
      (hitems : List.Forall₂ Tree.Leads items others)
      (hframes : List.Forall₂ Frame.Leads frames later) :
      Leads base (.item start items frames) (.item place others (later ++ base))
  | key (start place : Nat) {entries others : List (Key × Tree)} {frames later : List Frame}
      (hentries : List.Forall₂ EntryLeads entries others)
      (hframes : List.Forall₂ Frame.Leads frames later) :
      Leads base (.key start entries frames) (.key place others (later ++ base))
  | colon (start place : Nat) {entries others : List (Key × Tree)}
      {reading other : Except Fault String} {frames later : List Frame}
      (hentries : List.Forall₂ EntryLeads entries others)
      (hreading : ∀ name, reading = .ok name → other = .ok name)
      (hframes : List.Forall₂ Frame.Leads frames later) :
      Leads base (.colon start entries reading frames) (.colon place others other (later ++ base))
  | after {tree other : Tree} {frames later : List Frame} (htree : tree.Leads other)
      (hframes : List.Forall₂ Frame.Leads frames later) :
      Leads base (.after tree frames) (.after other (later ++ base))

/-- The text breaks off in a state. -/
def State.IsBroken : State → Prop
  | broken _ => True
  | _ => False

namespace State.Leads

variable {base : List Frame}

theorem stepValue {frames later : List Frame} {token other : Token}
    (hframes : List.Forall₂ Frame.Leads frames later) (htoken : token.lexeme.Leads other.lexeme)
    (hgoes : ¬ (Json.stepValue frames token).IsBroken) :
    State.Leads base (Json.stepValue frames token) (Json.stepValue (later ++ base) other) := by
  obtain ⟨lexeme, start, stop, width⟩ := token
  obtain ⟨lexeme', place, stop', width'⟩ := other
  dsimp only at htoken
  cases htoken with
  | mark mark =>
    cases mark with
    | openBracket => exact .item start place .nil hframes
    | openBrace => exact .key start place .nil hframes
    | _ => exact absurd trivial hgoes
  | text hreading =>
    refine .after (fun value hvalue => ?_) hframes
    obtain ⟨read, hread, rfl⟩ := Option.map_eq_some_iff.mp hvalue
    rw [Tree.Writes, Tree.written, hreading read (toOption_eq_some.mp hread)]
    exact ⟨rfl, rfl⟩
  | plain hreading =>
    refine .after (fun value hvalue => ?_) hframes
    obtain ⟨read, hread, rfl⟩ := Option.map_eq_some_iff.mp hvalue
    rw [Tree.Writes, Tree.written, hreading read (toOption_eq_some.mp hread)]
    exact ⟨rfl, rfl⟩

/-- What closes or goes on behind a value is the same in both runs. -/
theorem stepAfter {frames later : List Frame} {frame outer : Frame} {tree node : Tree}
    {token other : Token} (htree : tree.Leads node) (hframe : frame.Leads outer)
    (hframes : List.Forall₂ Frame.Leads frames later) (htoken : token.lexeme.Leads other.lexeme)
    (hgoes : ¬ ((State.after tree (frame :: frames)).step token).IsBroken) :
    State.Leads base ((State.after tree (frame :: frames)).step token)
      ((State.after node (outer :: (later ++ base))).step other) := by
  obtain ⟨lexeme, start, stop, width⟩ := token
  obtain ⟨lexeme', place, stop', width'⟩ := other
  dsimp only at htoken
  cases hframe with
  | list start place hitems =>
    have hmore := List.Forall₂.cons htree hitems
    cases htoken with
    | mark mark =>
      cases mark with
      | comma => exact .item start place hmore hframes
      | closeBracket => exact .after (Tree.leads_list (List.rel_reverse hmore)) hframes
      | _ => exact absurd trivial hgoes
    | _ => exact absurd trivial hgoes
  | @object start place _ _ key outerKey hentries hkey =>
    have hentry : EntryLeads (key, tree) (outerKey, node) := ⟨hkey, htree⟩
    have hmore := List.Forall₂.cons hentry hentries
    cases htoken with
    | mark mark =>
      cases mark with
      | comma => exact .key start place hmore hframes
      | closeBrace => exact .after (Tree.leads_object (List.rel_reverse hmore)) hframes
      | _ => exact absurd trivial hgoes
    | _ => exact absurd trivial hgoes

/-- **One step of the machine.** As long as the first run does not break off, the second one does
the same. -/
theorem step {state later : State} {token other : Token} (h : State.Leads base state later)
    (htoken : token.lexeme.Leads other.lexeme) (hgoes : ¬ (state.step token).IsBroken) :
    State.Leads base (state.step token) (later.step other) := by
  cases h with
  | value hframes => exact stepValue hframes htoken hgoes
  | after htree hframes =>
    cases hframes with
    | nil => exact absurd trivial hgoes
    | cons hframe hframes => exact stepAfter htree hframe hframes htoken hgoes
  | item start place hitems hframes =>
    have hinside : ¬ (Json.stepValue _ token).IsBroken → State.Leads base _ _ :=
      stepValue (.cons (.list start place hitems) hframes) htoken
    obtain ⟨lexeme, from₁, stop₁, width₁⟩ := token
    obtain ⟨lexeme', from₂, stop₂, width₂⟩ := other
    dsimp only at htoken
    cases htoken with
    | mark mark =>
      cases mark with
      | closeBracket =>
        cases hitems with
        | nil => exact .after (Tree.leads_list .nil) hframes
        | cons => exact absurd trivial hgoes
      | _ => exact hinside hgoes
    | _ => exact hinside hgoes
  | key start place hentries hframes =>
    obtain ⟨lexeme, from₁, stop₁, width₁⟩ := token
    obtain ⟨lexeme', from₂, stop₂, width₂⟩ := other
    dsimp only at htoken
    cases htoken with
    | mark mark =>
      cases mark with
      | closeBrace =>
        cases hentries with
        | nil => exact .after (Tree.leads_object .nil) hframes
        | cons => exact absurd trivial hgoes
      | _ => exact absurd trivial hgoes
    | text hreading => exact .colon start place hentries hreading hframes
    | plain hreading => exact absurd trivial hgoes
  | colon start place hentries hreading hframes =>
    obtain ⟨lexeme, from₁, stop₁, width₁⟩ := token
    obtain ⟨lexeme', from₂, stop₂, width₂⟩ := other
    dsimp only at htoken
    cases htoken with
    | mark mark =>
      cases mark with
      | colon => exact .value (.cons (.object start place hentries ⟨hreading, rfl⟩) hframes)
      | _ => exact absurd trivial hgoes
    | _ => exact absurd trivial hgoes

/-- Behind a whole value, nothing is open but what was open before. -/
theorem exists_after {tree : Tree} {later : State} (h : State.Leads base (.after tree []) later) :
    ∃ other, tree.Leads other ∧ later = .after other base := by
  cases h with
  | @after _ other _ _ htree hframes =>
    cases hframes with
    | nil => exact ⟨other, htree, rfl⟩

end State.Leads

/-- What a token that is not sound can be. -/
theorem Lexeme.cases_of_unsound {lexeme : Lexeme} (h : lexeme.isSound = false) :
    (∃ reading fault, lexeme = .text reading (.error fault)) ∨
      (∃ reading fault, lexeme = .plain reading (.error fault)) ∨ lexeme = .stray := by
  cases lexeme with
  | mark mark => cases h
  | text reading checking =>
    cases checking with
    | ok => cases h
    | error fault => exact .inl ⟨reading, fault, rfl⟩
  | plain reading checking =>
    cases checking with
    | ok => cases h
    | error fault => exact .inr (.inl ⟨reading, fault, rfl⟩)
  | stray => exact .inr (.inr rfl)

namespace State

variable {state : State} {token : Token} {tokens : List Token}

theorem IsBroken.exists_eq (h : state.IsBroken) : ∃ document, state = broken document := by
  cases state with
  | broken document => exact ⟨document, rfl⟩
  | _ => exact absurd h id

theorem IsBroken.step (h : state.IsBroken) (token : Token) : state.step token = state := by
  cases state with
  | broken document => rfl
  | _ => exact absurd h id

theorem IsBroken.run (h : state.IsBroken) (tokens : List Token) : state.run tokens = state := by
  induction tokens with
  | nil => rfl
  | cons token rest ih =>
    show (state.step token).run rest = state
    rw [h.step, ih]

/-- A token that is not sound breaks the machine off, whatever it waits for. -/
theorem isBroken_step (h : token.lexeme.isSound = false) (state : State) :
    (state.step token).IsBroken := by
  obtain ⟨lexeme, start, stop, width⟩ := token
  obtain ⟨reading, fault, rfl⟩ | ⟨reading, fault, rfl⟩ | rfl := Lexeme.cases_of_unsound h
  all_goals
    cases state with
    | after tree frames => obtain _ | ⟨_ | _, _⟩ := frames <;> trivial
    | _ => trivial

/-- A run that does not break off has met sound tokens only. -/
theorem isSound_of_run (h : ¬ (state.run tokens).IsBroken) :
    ∀ token ∈ tokens, token.lexeme.isSound = true := by
  induction tokens generalizing state with
  | nil => exact fun token htoken => nomatch htoken
  | cons first rest ih =>
    intro token htoken
    rcases List.mem_cons.mp htoken with rfl | hrest
    · by_contra hunsound
      have hbroken := isBroken_step (Bool.eq_false_iff.mpr hunsound) state
      have hrun : state.run (token :: rest) = state.step token := hbroken.run rest
      exact h (hrun ▸ hbroken)
    · exact ih h token hrest

/-- **Two runs of the machine.** A run that does not break off goes the same on tokens that read at
least as well, with more frames open below. -/
theorem Leads.run {base : List Frame} {later : State} {others : List Token}
    (h : State.Leads base state later)
    (htokens : List.Forall₂ (fun token other => token.lexeme.Leads other.lexeme) tokens others)
    (hgoes : ¬ (state.run tokens).IsBroken) :
    State.Leads base (state.run tokens) (later.run others) := by
  induction htokens generalizing state later with
  | nil => exact h
  | @cons token other tokens others htoken hrest ih =>
    have hstep : ¬ (state.step token).IsBroken := by
      intro hbroken
      have hrun : state.run (token :: tokens) = state.step token := hbroken.run tokens
      exact hgoes (hrun ▸ hbroken)
    exact ih (h.step htoken hstep) hgoes

theorem next_of_stepValue {frames : List Frame} {document : TextTree}
    (h : stepValue frames token = broken document) : document.next = token.next := by
  obtain ⟨lexeme, start, stop, width⟩ := token
  cases lexeme with
  | mark mark => cases mark <;> cases h <;> rfl
  | text reading checking =>
    cases checking <;> cases h
    rfl
  | plain reading checking =>
    cases checking <;> cases h
    rfl
  | stray => cases h; rfl

/-- A step that breaks off does so at its token. -/
theorem next_of_step {document : TextTree} (hstate : ¬ state.IsBroken)
    (h : state.step token = broken document) : document.next = token.next := by
  obtain ⟨lexeme, start, stop, width⟩ := token
  cases state with
  | value frames => exact next_of_stepValue h
  | item start items frames =>
    cases lexeme with
    | mark mark =>
      cases mark with
      | closeBracket =>
        cases items <;> cases h
        rfl
      | _ => exact next_of_stepValue h
    | _ => exact next_of_stepValue h
  | key start entries frames =>
    cases lexeme with
    | mark mark =>
      cases mark with
      | closeBrace =>
        cases entries <;> cases h
        rfl
      | _ => cases h; rfl
    | text reading checking =>
      cases checking <;> cases h
      rfl
    | _ => cases h; rfl
  | colon start entries reading frames =>
    cases lexeme with
    | mark mark => cases mark <;> cases h <;> rfl
    | _ => cases h; rfl
  | after tree frames =>
    obtain _ | ⟨_ | _, _⟩ := frames
    all_goals
      cases lexeme with
      | mark mark => cases mark <;> cases h <;> rfl
      | _ => cases h; rfl
  | broken document => exact absurd trivial hstate

/-- Where a run breaks off, something stands that is not the end of the text. -/
theorem sight_of_run {document : TextTree} (hstate : ¬ state.IsBroken)
    (h : state.run tokens = broken document) : document.next.sight ≠ .nothing := by
  induction tokens generalizing state with
  | nil =>
    obtain rfl : state = broken document := h
    exact absurd trivial hstate
  | cons token rest ih =>
    by_cases hbroken : (state.step token).IsBroken
    · have hstep : state.step token = broken document := (hbroken.run rest).symm.trans h
      rw [next_of_step hstate hstep, Token.next]
      split <;> simp
    · exact ih hbroken h

end State

/-! ### What a text writes -/

/-- The value that a text writes, if nothing follows it. -/
def written? (text : List Char) : Option Value :=
  match (State.value []).run (tokens text) with
  | .after tree [] => tree.written
  | _ => none

/-- No object that a text writes repeats a key. -/
def RepeatsNoKey (text : List Char) : Prop :=
  ∀ written ∈ written? text, written.DistinctKeys

/-- The run over a text that writes a value. -/
theorem run_of_written? {text : List Char} {value : Value} (h : written? text = some value) :
    ∃ tree, (State.value []).run (tokens text) = .after tree [] ∧ tree.written = some value := by
  rw [written?] at h
  split at h
  · next tree hrun => exact ⟨tree, hrun, h⟩
  · cases h

/-- Wherever a text stands, with frames open and something behind it that does not prolong it, the
machine is where the text ends after a node that writes the value. -/
def Writes (text : List Char) (value : Value) : Prop :=
  ∀ pos suffix frames, Parting suffix → ∃ tokens stop tree,
    tokensFrom 0 pos (text ++ suffix) = tokens ++ tokensFrom 0 stop suffix ∧
      (State.value frames).run tokens = .after tree frames ∧ tree.Writes value

/-- **A text writes its value wherever it stands.** -/
theorem writes_of_written? {text : List Char} {value : Value} (h : written? text = some value) :
    Writes text value := by
  intro pos suffix frames hsuffix
  obtain ⟨tree, hrun, hwritten⟩ := run_of_written? h
  have hgoes : ¬ ((State.value []).run (tokens text)).IsBroken := hrun ▸ id
  obtain ⟨others, stop, htokens, hleads⟩ :=
    tokensFrom_append (Nat.zero_le _) (State.isSound_of_run hgoes) hsuffix pos
  have hlater : State.Leads frames (.after tree []) ((State.value frames).run others) :=
    hrun ▸ State.Leads.run (.value .nil) hleads hgoes
  obtain ⟨other, htree, hother⟩ := hlater.exists_after
  exact ⟨others, stop, other, htokens, hother, htree value hwritten⟩

/-! ### A text that reads as a value -/

/-- A node that has its end. -/
def Tree.IsWhole : Tree → Prop
  | plain _ _ _ _ | text _ _ _ _ | list _ _ (.closed _) | object _ _ (.closed _) => True
  | _ => False

theorem Tree.isWhole_of_written {tree : Tree} {value : Value} (h : tree.written = some value) :
    tree.IsWhole := by
  cases tree with
  | absent next => cases h
  | plain reading checking start stop | text reading checking start stop => trivial
  | list start items ending | object start entries ending =>
    cases ending with
    | closed stop => trivial
    | _ => cases h

/-- A node that breaks off leaves all without an end that it stands in. -/
theorem Tree.not_isWhole_unwind (next : Next) {tree : Tree} (h : ¬ tree.IsWhole)
    (frames : List Frame) : ¬ (unwind next tree frames).IsWhole := by
  induction frames generalizing tree with
  | nil => exact h
  | cons frame frames ih =>
    cases frame <;> exact ih id

/-- A state behind which a text may end. -/
theorem State.eq_after_of_whole {state : State} (hstate : ¬ state.IsBroken) {next : Next}
    (h : (state.breakOff next).root.IsWhole) : ∃ tree, state = .after tree [] := by
  have hopen : (∃ tree, state = .after tree []) ∨ ¬ (state.breakOff next).root.IsWhole := by
    cases state with
    | value frames => exact .inr (Tree.not_isWhole_unwind next id frames)
    | item start items frames =>
      refine .inr (Tree.not_isWhole_unwind next ?_ frames)
      cases items <;> exact id
    | key start entries frames =>
      refine .inr (Tree.not_isWhole_unwind next ?_ frames)
      cases entries <;> exact id
    | colon start entries reading frames => exact .inr (Tree.not_isWhole_unwind next id frames)
    | after tree frames =>
      cases frames with
      | nil => exact .inl ⟨tree, rfl⟩
      | cons frame frames => cases frame <;> exact .inr (Tree.not_isWhole_unwind next id frames)
    | broken document => exact absurd trivial hstate
  exact hopen.resolve_right fun hbroken => hbroken h

/-- **A text that reads as a value writes one**, and collecting the entries of its objects gives
what it reads as. -/
theorem exists_written_of_ofText {text : List Char} {value : Value}
    (h : Value.ofText text = .ok value) :
    ∃ written, written? text = some written ∧ written.collected = value := by
  obtain ⟨read, hread, hclosed⟩ := bind_eq_ok.mp h
  split at hclosed
  · next hend =>
    obtain rfl := Except.ok.inj hclosed
    obtain ⟨written, hwritten, hcollected⟩ := Tree.exists_written_of_value hread
    refine ⟨written, ?_, hcollected⟩
    have hgoes : ¬ ((State.value []).run (tokens text)).IsBroken := by
      intro hbroken
      obtain ⟨document, hrun⟩ := hbroken.exists_eq
      rw [TextTree.ofText, hrun] at hend
      exact State.sight_of_run id hrun hend
    obtain ⟨tree, hrun⟩ := State.eq_after_of_whole hgoes (Tree.isWhole_of_written hwritten)
    rw [TextTree.ofText, hrun] at hwritten
    rw [written?, hrun]
    exact hwritten
  · cases hclosed

/-- The tree of a text that writes a value. -/
theorem Writes.ofText {text : List Char} {value : Value} (h : Writes text value) :
    ∃ tree byte, TextTree.ofText text = ⟨tree, ⟨.nothing, byte⟩⟩ ∧ tree.Writes value := by
  have hparting : Parting [] := fun c hc => nomatch hc
  obtain ⟨others, stop, tree, htokens, hrun, htree⟩ := h 0 [] [] hparting
  rw [List.append_nil, tokensFrom, List.append_nil] at htokens
  refine ⟨tree, Text.byteLength text, ?_, htree⟩
  rw [TextTree.ofText, tokens, htokens, hrun]
  rfl

/-! ### A text as the entry of an object -/

/-- The text of an object with one entry, whose value is written by another text. -/
def entryText (key : String) (text : List Char) : List Char :=
  '{' :: ((Text.literal key).toList ++ ':' :: (text ++ ['}']))

/-- The text of an object with one entry writes the object. -/
theorem Writes.entry {text : List Char} {value : Value} (h : Writes text value) (key : String) :
    Writes (entryText key text) (.object [(key, value)]) := by
  intro pos suffix frames hsuffix
  have hparting : Parting ('}' :: suffix) := by
    intro c hc
    obtain rfl := Option.some.inj hc
    decide
  have hlayout : entryText key text ++ suffix =
      '{' :: ((Text.literal key).toList ++ ':' :: (text ++ '}' :: suffix)) := by
    simp [entryText]
  obtain ⟨⟨lexeme, start, stop, width⟩, colon, hkey, hlexeme⟩ :=
    tokensFrom_literal key (pos + 1) (':' :: (text ++ '}' :: suffix))
  dsimp only at hlexeme
  obtain ⟨tokens, close, tree, htokens, hrun, hwritten, hcheck⟩ :=
    h (colon + 1) ('}' :: suffix)
      (.object pos [] ⟨.ok key, .ok (), ⟨.mark .colon, colon⟩⟩ :: frames) hparting
  have hopened : ∀ rest, tokensFrom 0 pos ('{' :: rest) =
      ⟨.mark .openBrace, pos, pos + 1, 1⟩ :: tokensFrom 0 (pos + 1) rest :=
    fun rest => tokensFrom_mark rfl rfl pos rest
  have hcolon : ∀ rest, tokensFrom 0 colon (':' :: rest) =
      ⟨.mark .colon, colon, colon + 1, 1⟩ :: tokensFrom 0 (colon + 1) rest :=
    fun rest => tokensFrom_mark rfl rfl colon rest
  have hclosed : tokensFrom 0 close ('}' :: suffix) =
      ⟨.mark .closeBrace, close, close + 1, 1⟩ :: tokensFrom 0 (close + 1) suffix :=
    tokensFrom_mark rfl rfl close suffix
  refine ⟨⟨.mark .openBrace, pos, pos + 1, 1⟩ :: ⟨lexeme, start, stop, width⟩ ::
    ⟨.mark .colon, colon, colon + 1, 1⟩ :: (tokens ++ [⟨.mark .closeBrace, close, close + 1, 1⟩]),
    close + 1, .object pos [(⟨.ok key, .ok (), ⟨.mark .colon, colon⟩⟩, tree)]
      (.closed (close + 1)), ?_, ?_, ?_, ?_⟩
  · rw [hlayout, hopened, hkey, hcolon, htokens, hclosed]
    simp
  · rw [hlexeme, State.run, List.foldl_cons, List.foldl_cons, List.foldl_cons, List.foldl_append]
    show State.step ((State.value (.object pos [] ⟨.ok key, .ok (), ⟨.mark .colon, colon⟩⟩ ::
      frames)).run tokens) _ = _
    rw [hrun]
    rfl
  · rw [Tree.written, Tree.writtenEntries, hwritten]
    rfl
  · rw [Tree.check, Tree.checkEntries, hcheck]
    rfl

end Json

end SchemaTypes
