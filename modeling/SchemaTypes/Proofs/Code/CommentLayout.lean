import SchemaTypes.Proofs.Code.Comments
import Mathlib

/-!
# How a comment is laid out

What a comment looks like is told here from its text alone: which breaks are left out, what stands
in place of an end mark, where the lines end, and what stands in front of each. The text is taken
apart in ways that have nothing to do with how the comment is written, so that the layout can be
checked against them.

## Main definitions

* `Code.IsProtected`: a text with its end marks broken up
* `Code.commentText`: the lines of a comment, from the lines of its text

## Main results

* `Code.isProtected_protectEnd`: what is done to end marks
* `Code.Buffer.comment_layout`: what writing a comment appends
-/

namespace SchemaTypes

namespace Code

/-! ### End marks that are broken up -/

/-- A text whose end marks are broken up: both are the same pieces, none of which has an end mark,
with an end mark between neighbours in the one and a broken one in the other. -/
def IsProtected (text shown : List Char) : Prop :=
  ∃ pieces : List (List Char), (∀ piece ∈ pieces, EndFree piece) ∧
    text = ['*', '/'].intercalate pieces ∧ shown = ['*', '\\', '/'].intercalate pieces

/-- A character in front of the first piece. -/
theorem intercalate_cons (separator : List Char) (c : Char) (first : List Char)
    (more : List (List Char)) :
    separator.intercalate ((c :: first) :: more) = c :: separator.intercalate (first :: more) := by
  cases more <;> simp

/-- A text starts with its first piece. -/
theorem head?_intercalate {separator first : List Char} {more : List (List Char)} {c : Char}
    (h : first.head? = some c) : (separator.intercalate (first :: more)).head? = some c := by
  obtain ⟨rest, rfl⟩ := List.head?_eq_some_iff.mp h
  rw [intercalate_cons, List.head?_cons]

/-- **A protected text** has a broken end mark in place of each end mark, and is the same in all
else. -/
theorem isProtected_protectEnd (text : List Char) : IsProtected text (protectEnd text) := by
  have hpieces : ∃ first more, (∀ piece ∈ first :: more, EndFree piece) ∧
      text = ['*', '/'].intercalate (first :: more) ∧
      protectEnd text = ['*', '\\', '/'].intercalate (first :: more) := by
    induction text with
    | nil => exact ⟨[], [], by simp, rfl, rfl⟩
    | cons c rest ih =>
      obtain ⟨first, more, hfree, hrest, hshown⟩ := ih
      obtain ⟨hfirst, hmore⟩ := List.forall_mem_cons.mp hfree
      rw [protectEnd]
      split
      · next hend =>
        -- the second character of the end mark starts the first piece of what follows
        obtain ⟨rfl, hslash⟩ := hend
        cases first with
        | nil =>
          cases more <;> simp [hrest] at hslash
        | cons slash first =>
          obtain rfl : slash = '/' := by
            rw [hrest, intercalate_cons, List.head?_cons] at hslash
            exact Option.some.inj hslash
          refine ⟨[], first :: more, ?_, ?_, ?_⟩
          · exact List.forall_mem_cons.mpr
              ⟨endFree_nil, List.forall_mem_cons.mpr ⟨(endFree_cons.mp hfirst).2, hmore⟩⟩
          · rw [hrest, intercalate_cons, List.intercalate_cons_cons]
            rfl
          · rw [hshown, intercalate_cons, List.intercalate_cons_cons]
            rfl
      · next hend =>
        refine ⟨c :: first, more, ?_, ?_, ?_⟩
        · refine List.forall_mem_cons.mpr ⟨endFree_cons.mpr ⟨fun hmark => hend ?_, hfirst⟩, hmore⟩
          exact ⟨hmark.1, by rw [hrest]; exact head?_intercalate hmark.2⟩
        · rw [intercalate_cons, ← hrest]
        · rw [intercalate_cons, ← hshown]
  obtain ⟨first, more, hpieces⟩ := hpieces
  exact ⟨first :: more, hpieces⟩

/-! ### What is appended -/

/-- The lines of a comment for a text, from the protected text and its lines. -/
def commentText (text shown : List Char) (lines : List (List Char)) : List String :=
  if '\n' ∈ text then
    "/**" ::
      ((lines.map fun line => if line = [] then " *" else " * " ++ String.ofList line) ++ [" */"])
  else ["/** " ++ String.ofList shown ++ " */"]

theorem starLine_eq :
    starLine = fun line => if line = [] then " *" else " * " ++ String.ofList line := by
  funext line
  cases line <;> rfl

theorem commentLines_eq_nil_iff {text : String} :
    commentLines text = [] ↔ ∀ c ∈ Text.trimBreaks text.toList, Unicode.isBlank c = true := by
  rw [← List.all_eq_true, ← Unicode.isBlankText]
  simp only [commentLines]
  split
  · next hblank => simp [hblank]
  · next hblank =>
    split <;> simp [hblank]

theorem commentLines_eq {text : String} (h : commentLines text ≠ []) :
    commentLines text = commentText (Text.trimBreaks text.toList)
      (protectEnd (Text.trimBreaks text.toList))
      (Text.lines (protectEnd (Text.trimBreaks text.toList))) := by
  simp only [commentLines] at h ⊢
  split
  · next hblank => exact absurd (if_pos hblank) h
  · simp only [commentText, List.contains_iff_mem, mem_protectEnd (show '\n' ≠ '\\' by decide),
      starLine_eq]

/-- The rows of a comment are its lines behind the indentation. -/
theorem layout_commentRows (indent : Indent) (level : Nat) (text : String) :
    layout indent (commentRows level text) =
      Text.unlines ((commentLines text).map (Buffer.margin indent level ++ ·)) := by
  rw [layout, commentRows, List.map_map]
  rfl

/-- Only without rows there is nothing to write. -/
theorem layout_eq_empty_iff {indent : Indent} {rows : List Row} :
    layout indent rows = "" ↔ rows = [] := by
  cases rows with
  | nil => simp [layout]
  | cons row rest =>
    have hfeed : '\n' ∈ (layout indent (row :: rest)).toList := by simp [layout]
    refine ⟨fun h => ?_, fun h => absurd h (List.cons_ne_nil row rest)⟩
    rw [h] at hfeed
    exact absurd hfeed List.not_mem_nil

namespace Buffer

/-- **What writing a comment appends.** Take the text without the breaks around it. If it shows
nothing, nothing is appended. Otherwise a comment is appended, which has one end mark and no other;
and it is the protected text on one line if the text is one line, and its lines behind stars if the
text is several lines. In front of each line stands the indentation of one level, as often as the
buffer is deep. Nothing but the text of the buffer changes. -/
theorem comment_layout (buffer : Buffer) (text : String) :
    ∃ trimmed shown lines written, Text.IsTrimmed text.toList trimmed ∧
      IsProtected trimmed shown ∧ Text.IsLines shown lines ∧
      buffer.comment text = { buffer with text := buffer.text ++ written } ∧
      (written = "" ↔ ∀ c ∈ trimmed, Unicode.isBlank c = true) ∧
      (written ≠ "" → IsComment written ∧
        written = Text.unlines ((commentText trimmed shown lines).map fun line =>
          String.join (List.replicate buffer.level buffer.indent.unit) ++ line)) := by
  have hnothing : layout buffer.indent (commentRows buffer.level text) = "" ↔
      commentLines text = [] := by
    rw [layout_eq_empty_iff, commentRows, List.map_eq_nil_iff]
  refine ⟨_, _, _, _, Text.isTrimmed_trimBreaks text.toList, isProtected_protectEnd _,
    Text.isLines_lines _, comment_eq buffer text, ?_, fun hne => ?_⟩
  · exact hnothing.trans commentLines_eq_nil_iff
  · have hlines : commentLines text ≠ [] := fun h => hne (hnothing.mpr h)
    refine ⟨isComment_layout buffer.indent buffer.level hlines, ?_⟩
    rw [layout_commentRows, commentLines_eq hlines, margin_eq]

end Buffer

end Code

end SchemaTypes
