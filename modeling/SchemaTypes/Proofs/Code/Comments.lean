import SchemaTypes.Proofs.Code.CodeLines

/-!
# Comments in a text

A comment is written between an opening and an end mark, and ends at the first end mark there is.
The text of a comment is protected, and nothing that is put around it makes an end mark out of what
was none: each line of it stands behind a mark of its own. So a comment that is laid out holds the
one end mark it closes with, and a text into which comments are put, each at the start of a line,
says to a compiler what it said before.

## Main definitions

* `Code.EndFree`: a text without end marks
* `Code.IsComment`: a comment on lines of its own
* `Code.Commented`: a text with comments put in

## Main results

* `Code.endFree_protectEnd`: a protected text has no end mark
* `Code.isComment_layout`: the rows of a comment are a comment
* `Code.Commented.comment_rows`: and so they can be put in
-/

namespace SchemaTypes

namespace Code

/-! ### End marks -/

/-- No end mark is part of the text. -/
def EndFree (text : List Char) : Prop :=
  ¬ ['*', '/'] <:+: text

@[simp] theorem endFree_nil : EndFree [] := by
  simp [EndFree]

/-- An end mark starts at a first character or behind it. -/
theorem endFree_cons {c : Char} {text : List Char} :
    EndFree (c :: text) ↔ ¬ (c = '*' ∧ text.head? = some '/') ∧ EndFree text := by
  have hfirst : ['*', '/'] <+: c :: text ↔ c = '*' ∧ text.head? = some '/' := by
    cases text <;> simp [eq_comm]
  rw [EndFree, List.infix_cons_iff, hfirst, not_or, EndFree]

namespace EndFree

variable {front back : List Char}

/-- A character other than the first one of an end mark can stand in front. -/
theorem cons {c : Char} (hc : c ≠ '*') (h : EndFree back) : EndFree (c :: back) :=
  endFree_cons.mpr ⟨fun hend => hc hend.1, h⟩

/-- No end mark arises between two texts if the second does not start like the rest of one. -/
theorem append (hfront : EndFree front) (hback : EndFree back) (h : back.head? ≠ some '/') :
    EndFree (front ++ back) := by
  induction front with
  | nil => exact hback
  | cons c rest ih =>
    obtain ⟨hfirst, hrest⟩ := endFree_cons.mp hfront
    refine endFree_cons.mpr ⟨?_, ih hrest⟩
    cases rest with
    | nil => exact fun hend => h hend.2
    | cons next rest => exact hfirst

theorem margin_append {margin : List Char} (hmargin : ∀ c ∈ margin, isMargin c = true)
    (h : EndFree back) : EndFree (margin ++ back) := by
  induction margin with
  | nil => exact h
  | cons c rest ih =>
    obtain ⟨hc, hrest⟩ := List.forall_mem_cons.mp hmargin
    refine .cons ?_ (ih hrest)
    rintro rfl
    exact absurd hc (by decide)

/-- The first end mark behind a text without one is the one that follows it. -/
theorem eq_of_append_eq (h : EndFree front) {before after rest : List Char}
    (heq : front ++ '*' :: '/' :: rest = before ++ '*' :: '/' :: after)
    (hrest : EndFree rest) : after = rest := by
  rcases List.append_eq_append_iff.mp heq with ⟨gap, rfl, hgap⟩ | ⟨gap, rfl, hgap⟩
  · match gap with
    | [] => exact (List.cons.inj (List.cons.inj hgap).2).2.symm
    | ['*'] => exact absurd (List.cons.inj (List.cons.inj hgap).2).1 (by decide)
    | _ :: _ :: tail =>
      have hmark : rest = tail ++ '*' :: '/' :: after :=
        (List.cons.inj (List.cons.inj hgap).2).2
      exact absurd ⟨tail, after, by simp [hmark]⟩ hrest
  · match gap with
    | [] => exact (List.cons.inj (List.cons.inj hgap).2).2
    | ['*'] => exact absurd (List.cons.inj (List.cons.inj hgap).2).1 (by decide)
    | first :: next :: tail =>
      obtain rfl : '*' = first := (List.cons.inj hgap).1
      obtain rfl : '/' = next := (List.cons.inj (List.cons.inj hgap).2).1
      exact absurd ⟨before, tail, by simp⟩ h

theorem of_infix (h : EndFree back) (hpiece : front <:+: back) : EndFree front :=
  fun hend => h (hend.trans hpiece)

/-- Lines one after another bring no end mark, because each is followed by a line feed. -/
theorem unlines_append {lines : List String} (hlines : ∀ line ∈ lines, EndFree line.toList)
    (h : EndFree back) : EndFree ((Text.unlines lines).toList ++ back) := by
  induction lines with
  | nil => exact h
  | cons line rest ih =>
    obtain ⟨hline, hrest⟩ := List.forall_mem_cons.mp hlines
    have hwritten : (Text.unlines (line :: rest)).toList ++ back =
        line.toList ++ '\n' :: ((Text.unlines rest).toList ++ back) := by simp
    rw [hwritten]
    exact hline.append (.cons (by decide) (ih hrest)) (by simp)

end EndFree

/-! ### The text of a comment -/

theorem head?_protectEnd (text : List Char) : (protectEnd text).head? = text.head? := by
  cases text with
  | nil => rfl
  | cons c rest =>
    rw [protectEnd]
    split
    · next hend => rw [hend.1, List.head?_cons, List.head?_cons]
    · rfl

theorem protectEnd_cons {c : Char} (hc : c ≠ '*') (rest : List Char) :
    protectEnd (c :: rest) = c :: protectEnd rest := by
  rw [protectEnd, if_neg fun h => hc h.1]

theorem protectEnd_append_of_notMem {front : List Char} (h : '*' ∉ front) (after : List Char) :
    protectEnd (front ++ after) = front ++ protectEnd after := by
  induction front with
  | nil => rfl
  | cons c rest ih =>
    obtain ⟨hc, hrest⟩ := not_or.mp (mt List.mem_cons.mpr h)
    rw [List.cons_append, protectEnd_cons (Ne.symm hc), ih hrest, List.cons_append]

/-- Breaking up end marks brings nothing but backslashes. -/
theorem mem_protectEnd {c : Char} (hc : c ≠ '\\') {text : List Char} :
    c ∈ protectEnd text ↔ c ∈ text := by
  induction text with
  | nil => exact Iff.rfl
  | cons first rest ih =>
    rw [protectEnd]
    split
    · next hend => simp [ih, hend.1, hc]
    · rw [List.mem_cons, List.mem_cons, ih]

/-- No end mark lies across a line break. -/
theorem protectEnd_feed (front rest : List Char) :
    protectEnd (front ++ '\n' :: rest) = protectEnd front ++ '\n' :: protectEnd rest := by
  induction front with
  | nil => exact protectEnd_cons (by decide) rest
  | cons c front ih =>
    have hhead : (front ++ '\n' :: rest).head? = some '/' ↔ front.head? = some '/' := by
      cases front <;> simp
    rw [List.cons_append, protectEnd, protectEnd, ih]
    simp only [hhead]
    split <;> rfl

/-- **A protected text has no end mark.** -/
theorem endFree_protectEnd (text : List Char) : EndFree (protectEnd text) := by
  induction text with
  | nil => exact endFree_nil
  | cons c rest ih =>
    rw [protectEnd]
    split
    · exact endFree_cons.mpr ⟨by simp, .cons (by decide) ih⟩
    · next hend => exact endFree_cons.mpr ⟨by rwa [head?_protectEnd], ih⟩

/-- A star in front of a line does not make an end mark of its first character. -/
theorem endFree_starLine {line : List Char} (h : EndFree line) :
    EndFree (starLine line).toList := by
  have hstar : EndFree [' ', '*'] := by simp [endFree_cons]
  rw [starLine]
  split
  · exact hstar
  · have hwritten : (" * " ++ String.ofList line).toList = [' ', '*'] ++ ' ' :: line := by simp
    rw [hwritten]
    exact hstar.append (.cons (by decide) h) (by simp)

/-- A comment is empty, or stands on one line, or on several. No line has an end mark but the
last. -/
theorem commentLines_cases (text : String) :
    commentLines text = [] ∨
      (∃ shown, EndFree shown ∧ commentLines text = ["/** " ++ String.ofList shown ++ " */"]) ∨
      ∃ lines, (∀ line ∈ lines, EndFree line.toList) ∧
        commentLines text = "/**" :: (lines ++ [" */"]) := by
  have hshown := endFree_protectEnd (Text.trimBreaks text.toList)
  simp only [commentLines]
  split
  · exact .inl rfl
  split
  · refine .inr (.inr ⟨_, fun line hline => ?_, rfl⟩)
    obtain ⟨shown, hmem, rfl⟩ := List.mem_map.mp hline
    exact endFree_starLine (hshown.of_infix (Text.infix_of_mem_lines hmem))
  · exact .inr (.inl ⟨_, hshown, rfl⟩)

/-! ### Comments on lines of their own -/

/-- A comment on lines of its own: indentation, an opening mark, and the only end mark in front of
the last line feed. -/
structure IsComment (text : String) : Prop where
  form : ∃ margin inner : String, (∀ c ∈ margin.toList, isMargin c = true) ∧
    text = margin ++ "/**" ++ inner ++ "*/\n"
  once : ∀ before after : String, text = before ++ "*/" ++ after → after = "\n"

theorem isComment_of_endFree {margin inner : String}
    (hmargin : ∀ c ∈ margin.toList, isMargin c = true) (hinner : EndFree inner.toList)
    (hfirst : inner.toList.head? ≠ some '/') : IsComment (margin ++ "/**" ++ inner ++ "*/\n") := by
  have hopening : EndFree ['/', '*', '*'] := by simp [endFree_cons]
  have hbody : EndFree (margin.toList ++ (['/', '*', '*'] ++ inner.toList)) :=
    .margin_append hmargin (hopening.append hinner hfirst)
  refine ⟨⟨margin, inner, hmargin, rfl⟩, fun before after heq => ?_⟩
  have hchars : margin.toList ++ (['/', '*', '*'] ++ inner.toList) ++ '*' :: '/' :: ['\n'] =
      before.toList ++ '*' :: '/' :: after.toList := by
    simpa using congrArg String.toList heq
  exact String.toList_inj.mp (hbody.eq_of_append_eq hchars (by simp [endFree_cons]))

section Layout

variable (indent : Indent) (level : Nat)

theorem isComment_single {shown : List Char} (h : EndFree shown) :
    IsComment (layout indent [.line level ("/** " ++ String.ofList shown ++ " */")]) := by
  have hblank : EndFree [' '] := by simp [endFree_cons]
  have hinner : EndFree (" " ++ String.ofList shown ++ " ").toList := by
    simpa using EndFree.cons (by decide) (h.append hblank (by simp))
  have hwritten : layout indent [.line level ("/** " ++ String.ofList shown ++ " */")] =
      Buffer.margin indent level ++ "/**" ++ (" " ++ String.ofList shown ++ " ") ++ "*/\n" := by
    simp [layout, Row.render, ← String.toList_inj]
  rw [hwritten]
  exact isComment_of_endFree (fun _ => isMargin_of_mem_margin) hinner (by simp)

theorem isComment_several {lines : List String} (h : ∀ line ∈ lines, EndFree line.toList) :
    IsComment (layout indent (("/**" :: (lines ++ [" */"])).map (.line level))) := by
  have hmargin : ∀ c ∈ (Buffer.margin indent level).toList, isMargin c = true :=
    fun _ => isMargin_of_mem_margin
  have hlines : ∀ line ∈ (lines.map (.line level)).map (Row.render indent),
      EndFree line.toList := by
    intro line hline
    obtain ⟨row, hrow, rfl⟩ := List.mem_map.mp hline
    obtain ⟨text, htext, rfl⟩ := List.mem_map.mp hrow
    rw [Row.render, String.toList_append]
    exact .margin_append hmargin (h text htext)
  have hlast : EndFree ((Buffer.margin indent level).toList ++ [' ']) :=
    .margin_append hmargin (by simp [endFree_cons])
  have hinner : EndFree ("\n" ++ layout indent (lines.map (.line level)) ++
      Buffer.margin indent level ++ " ").toList := by
    simpa [layout] using EndFree.cons (by decide) (EndFree.unlines_append hlines hlast)
  have hwritten : layout indent (("/**" :: (lines ++ [" */"])).map (.line level)) =
      Buffer.margin indent level ++ "/**" ++ ("\n" ++ layout indent (lines.map (.line level)) ++
        Buffer.margin indent level ++ " ") ++ "*/\n" := by
    simp [layout, Row.render, ← String.toList_inj]
  rw [hwritten]
  exact isComment_of_endFree hmargin hinner (by simp)

/-- **The rows of a comment are a comment**, at every level and whatever its text. -/
theorem isComment_layout {text : String} (h : commentLines text ≠ []) :
    IsComment (layout indent (commentRows level text)) := by
  rw [commentRows]
  rcases commentLines_cases text with hlines | ⟨shown, hshown, hlines⟩ | ⟨lines, hfree, hlines⟩
  · exact absurd hlines h
  · rw [hlines]
    exact isComment_single indent level hshown
  · rw [hlines]
    exact isComment_several indent level hfree

end Layout

/-! ### Putting comments in -/

/-- The second text is the first with comments put in, each at the start of a line. -/
inductive Commented : String → String → Prop
  | refl (text : String) : Commented text text
  /-- at the start of a text there is the start of a line -/
  | comment {block bare full : String} : IsComment block → Commented bare full →
      Commented bare (block ++ full)
  /-- and there is one behind every line feed -/
  | behind (front : String) {bare full : String} : Commented bare full →
      Commented (front ++ "\n" ++ bare) (front ++ "\n" ++ full)

namespace Commented

variable {indent : Indent} {bare full : List Row}

/-- A row in front stays where it is. -/
theorem row (row : Row) (h : Commented (layout indent bare) (layout indent full)) :
    Commented (layout indent (row :: bare)) (layout indent (row :: full)) :=
  .behind (row.render indent) h

theorem rows (rows : List Row) (h : Commented (layout indent bare) (layout indent full)) :
    Commented (layout indent (rows ++ bare)) (layout indent (rows ++ full)) := by
  induction rows with
  | nil => exact h
  | cons first rest ih => exact ih.row first

/-- **The rows of a comment can be put in.** A text that shows nothing has no rows to put in. -/
theorem comment_rows (level : Nat) (text : String)
    (h : Commented (layout indent bare) (layout indent full)) :
    Commented (layout indent bare) (layout indent (commentRows level text ++ full)) := by
  rw [layout_append]
  by_cases hlines : commentLines text = []
  · rw [commentRows, hlines]
    simpa [layout] using h
  · exact .comment (isComment_layout indent level hlines) h

end Commented

end Code

end SchemaTypes
