import SchemaTypes.Proofs.Json.Content
import SchemaTypes.Proofs.Json.Machine

/-!
# What the machine holds is grammatical

The machine breaks off at the first token that it cannot take. So whatever it holds before is
grammatical, and when it has taken the last token of a text and nothing is open, the text is
grammatical as a whole. A text that is read to its end as something has brought the machine there,
since in any other state the tree of the text lacks an end.

## Main definitions

* `Json.State.Sound`: what the machine holds is grammatical

## Main results

* `Json.State.Sound.step`, `Json.State.Sound.run`: the machine holds grammatical nodes only
* `Json.Content.exists_ofText?`: a text whose tree is whole says something
-/

namespace SchemaTypes

namespace Json

/-! ### What is held -/

/-- An entry that can be skipped. -/
def EntryIsGrammatical (entry : Key × Tree) : Prop :=
  entry.1.checking = .ok () ∧ entry.2.IsGrammatical

namespace Tree

theorem checkItems_eq_ok {items : List Tree} (h : ∀ item ∈ items, item.IsGrammatical) :
    checkItems items = .ok () := by
  induction items with
  | nil => rfl
  | cons item rest ih =>
    obtain ⟨hitem, hrest⟩ := List.forall_mem_cons.mp h
    exact bind_eq_ok.mpr ⟨(), hitem, ih hrest⟩

theorem checkEntries_eq_ok {entries : List (Key × Tree)}
    (h : ∀ entry ∈ entries, EntryIsGrammatical entry) : checkEntries entries = .ok () := by
  induction entries with
  | nil => rfl
  | cons entry rest ih =>
    obtain ⟨⟨hkey, htree⟩, hrest⟩ := List.forall_mem_cons.mp h
    exact bind_eq_ok.mpr ⟨(), hkey, bind_eq_ok.mpr ⟨(), htree, ih hrest⟩⟩

/-- A list that has been closed. What it holds is kept last to first until then. -/
theorem isGrammatical_list {items : List Tree} (h : ∀ item ∈ items, item.IsGrammatical)
    (start stop : Nat) : (list start items.reverse (.closed stop)).IsGrammatical :=
  bind_eq_ok.mpr ⟨(), checkItems_eq_ok fun item hitem => h item (List.mem_reverse.mp hitem), rfl⟩

theorem isGrammatical_object {entries : List (Key × Tree)}
    (h : ∀ entry ∈ entries, EntryIsGrammatical entry) (start stop : Nat) :
    (object start entries.reverse (.closed stop)).IsGrammatical :=
  bind_eq_ok.mpr
    ⟨(), checkEntries_eq_ok fun entry hentry => h entry (List.mem_reverse.mp hentry), rfl⟩

end Tree

/-- An open list or object holds grammatical nodes only. -/
def Frame.Sound : Frame → Prop
  | list _ items => ∀ item ∈ items, item.IsGrammatical
  | object _ entries key =>
    (∀ entry ∈ entries, EntryIsGrammatical entry) ∧ key.checking = .ok ()

/-- The machine holds grammatical nodes only, unless it has broken off. -/
def State.Sound : State → Prop
  | value frames => ∀ frame ∈ frames, frame.Sound
  | item _ items frames => (∀ item ∈ items, item.IsGrammatical) ∧ ∀ frame ∈ frames, frame.Sound
  | key _ entries frames | colon _ entries _ frames =>
    (∀ entry ∈ entries, EntryIsGrammatical entry) ∧ ∀ frame ∈ frames, frame.Sound
  | after tree frames => tree.IsGrammatical ∧ ∀ frame ∈ frames, frame.Sound
  | broken _ => True

namespace State

theorem sound_stepValue {frames : List Frame} (h : ∀ frame ∈ frames, frame.Sound) (token : Token) :
    (stepValue frames token).Sound := by
  obtain ⟨lexeme, start, stop, width⟩ := token
  cases lexeme with
  | mark mark =>
    cases mark with
    | openBracket | openBrace => exact ⟨List.forall_mem_nil _, h⟩
    | _ => trivial
  | text reading checking | plain reading checking =>
    cases checking with
    | ok => exact ⟨rfl, h⟩
    | error => trivial
  | stray => trivial

/-- What closes or goes on behind a value holds the value. -/
theorem sound_stepAfter {tree : Tree} {frame : Frame} {frames : List Frame}
    (htree : tree.IsGrammatical) (hframe : frame.Sound) (hframes : ∀ frame ∈ frames, frame.Sound)
    (token : Token) : ((after tree (frame :: frames)).step token).Sound := by
  obtain ⟨lexeme, start, stop, width⟩ := token
  cases frame with
  | list first items =>
    have hmore : ∀ item ∈ tree :: items, item.IsGrammatical :=
      List.forall_mem_cons.mpr ⟨htree, hframe⟩
    cases lexeme with
    | mark mark =>
      cases mark with
      | comma => exact ⟨hmore, hframes⟩
      | closeBracket => exact ⟨Tree.isGrammatical_list hmore first stop, hframes⟩
      | _ => trivial
    | _ => trivial
  | object first entries key =>
    have hmore : ∀ entry ∈ (key, tree) :: entries, EntryIsGrammatical entry :=
      List.forall_mem_cons.mpr ⟨⟨hframe.2, htree⟩, hframe.1⟩
    cases lexeme with
    | mark mark =>
      cases mark with
      | comma => exact ⟨hmore, hframes⟩
      | closeBrace => exact ⟨Tree.isGrammatical_object hmore first stop, hframes⟩
      | _ => trivial
    | _ => trivial

/-- **One step of the machine** keeps what it holds grammatical. -/
theorem Sound.step {state : State} (h : state.Sound) (token : Token) :
    (state.step token).Sound := by
  cases state with
  | value frames => exact sound_stepValue h token
  | after tree frames =>
    cases frames with
    | nil => trivial
    | cons frame frames =>
      obtain ⟨htree, hframes⟩ := h
      obtain ⟨hframe, hframes⟩ := List.forall_mem_cons.mp hframes
      exact sound_stepAfter htree hframe hframes token
  | item first items frames =>
    obtain ⟨hitems, hframes⟩ := h
    have hframe : (Frame.list first items).Sound := hitems
    have hinside : (stepValue (.list first items :: frames) token).Sound :=
      sound_stepValue (List.forall_mem_cons.mpr ⟨hframe, hframes⟩) token
    obtain ⟨lexeme, start, stop, width⟩ := token
    cases lexeme with
    | mark mark =>
      cases mark with
      | closeBracket =>
        cases items with
        | nil => exact ⟨Tree.isGrammatical_list hitems first stop, hframes⟩
        | cons => trivial
      | _ => exact hinside
    | _ => exact hinside
  | key first entries frames =>
    obtain ⟨lexeme, start, stop, width⟩ := token
    cases lexeme with
    | mark mark =>
      cases mark with
      | closeBrace =>
        cases entries with
        | nil => exact ⟨Tree.isGrammatical_object h.1 first stop, h.2⟩
        | cons => trivial
      | _ => trivial
    | text reading checking =>
      cases checking with
      | ok => exact h
      | error => trivial
    | _ => trivial
  | colon first entries reading frames =>
    obtain ⟨lexeme, start, stop, width⟩ := token
    cases lexeme with
    | mark mark =>
      cases mark with
      | colon =>
        obtain ⟨hentries, hframes⟩ := h
        have hframe : (Frame.object first entries ⟨reading, .ok (), ⟨.mark .colon, start⟩⟩).Sound :=
          ⟨hentries, rfl⟩
        exact List.forall_mem_cons.mpr ⟨hframe, hframes⟩
      | _ => trivial
    | _ => trivial
  | broken document => trivial

/-- **A run of the machine** keeps what it holds grammatical. -/
theorem Sound.run {state : State} (h : state.Sound) (tokens : List Token) :
    (state.run tokens).Sound := by
  induction tokens generalizing state with
  | nil => exact h
  | cons token rest ih => exact ih (h.step token)

end State

/-- **A text whose tree is whole**, and ends where the text does, says something. -/
theorem Content.exists_ofText? {text : List Char}
    (hnext : (TextTree.ofText text).next.sight = .nothing)
    (hroot : (TextTree.ofText text).root.IsWhole) : ∃ content, ofText? text = some content := by
  have hstart : (State.value []).Sound := List.forall_mem_nil _
  have hsound := hstart.run (tokens text)
  have hgoes : ¬ ((State.value []).run (tokens text)).IsBroken := by
    intro hbroken
    obtain ⟨document, hrun⟩ := hbroken.exists_eq
    rw [TextTree.ofText, hrun] at hnext
    exact State.sight_of_run id hrun hnext
  obtain ⟨tree, hrun⟩ := State.eq_after_of_whole hgoes hroot
  rw [hrun] at hsound
  have hcheck : (TextTree.ofText text).root.IsGrammatical := by
    rw [TextTree.ofText, hrun]
    exact hsound.1
  exact ⟨_, if_pos ⟨hnext, by rw [hcheck]; rfl⟩⟩

end Json

end SchemaTypes
