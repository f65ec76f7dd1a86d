import SchemaTypes.Proofs.TypeScript.Rows

/-!
# Headers as comments

The header of a file is text from outside, and each of its lines is written behind a comment mark.
Lines are not the same everywhere. A header is parted at its line feeds, while a script also ends a
line at a carriage return that stands alone and at the two separators of Unicode, and with the line
it ends the comment. What follows such a character is read as code, unless it happens to be nothing
or a comment of its own.

## Main definitions

* `Text.isScriptBreak`: the characters at which a line of a script ends
* `Text.BreaksAtFeeds`: a text in which a script has no other lines
* `TypeScript.OnlyRemarks`: a text in which every line that is not empty is a comment

## Main results

* `TypeScript.SourceFile.onlyRemarks_of_breaksAtFeeds`: a header that breaks at line feeds only
* `TypeScript.SourceFile.header_commented_iff`: exactly which headers stay inside comments
* `TypeScript.SourceFile.not_every_header_commented`: a header that does not
-/

namespace SchemaTypes

/-! ### Lines of a script -/

namespace Text

/-- The characters at which a line of a script ends: the line feed, the carriage return, and the
separators of lines and of paragraphs. -/
def isScriptBreak (c : Char) : Bool :=
  c = '\n' || c = '\r' || c = '\u2028' || c = '\u2029'

/-- In a text that breaks at line feeds a script has no other lines: the only other break is a
carriage return in front of a line feed. -/
def BreaksAtFeeds : List Char → Prop
  | [] => True
  | c :: rest =>
    (isScriptBreak c = true → c = '\n' ∨ c = '\r' ∧ rest.head? = some '\n') ∧ BreaksAtFeeds rest

theorem isScriptBreak_of_mem_lines {text line : List Char} (htext : BreaksAtFeeds text)
    (h : line ∈ lines text) : ∀ c ∈ line, isScriptBreak c = false := by
  induction text generalizing line with
  | nil => simp at h
  | cons c cs ih =>
    obtain ⟨hc, hcs⟩ := htext
    rw [lines] at h
    split at h
    · rcases List.mem_cons.mp h with rfl | h
      · exact fun _ hd => absurd hd List.not_mem_nil
      · exact ih hcs h
    · next hfeed =>
      split at h
      · exact ih hcs h
      · next hreturn =>
        have hplain : isScriptBreak c = false := by
          cases hbreak : isScriptBreak c with
          | false => rfl
          | true => exact absurd (hc hbreak) (not_or.mpr ⟨hfeed, hreturn⟩)
        split at h
        · obtain rfl := List.mem_singleton.mp h
          simpa using hplain
        · next first others hlines =>
          rw [hlines] at ih
          rcases List.mem_cons.mp h with rfl | h
          · exact List.forall_mem_cons.mpr ⟨hplain, ih hcs List.mem_cons_self⟩
          · exact ih hcs (List.mem_cons_of_mem first h)

end Text

namespace TypeScript

open Code

/-! ### Comments to the end of a line -/

/-- A line that is a comment from its start. -/
def IsRemark (line : List Char) : Prop :=
  ['/', '/'] <+: line

/-- Every line that is not empty is a comment, where lines end at the characters with a property. -/
def OnlyRemarks (p : Char → Bool) (text : List Char) : Prop :=
  ∀ line ∈ text.splitOnP p, line ≠ [] → IsRemark line

section Breaks

variable {p : Char → Bool}

theorem onlyRemarks_nil : OnlyRemarks p [] := by
  simp [OnlyRemarks]

theorem onlyRemarks_append_break {c : Char} (hc : p c = true) (xs ys : List Char) :
    OnlyRemarks p (xs ++ c :: ys) ↔ OnlyRemarks p xs ∧ OnlyRemarks p ys := by
  simp only [OnlyRemarks, List.splitOnP_append_cons xs ys hc, List.forall_mem_append]

theorem onlyRemarks_unlines (hfeed : p '\n' = true) (lines : List String) :
    OnlyRemarks p (Text.unlines lines).toList ↔ ∀ line ∈ lines, OnlyRemarks p line.toList := by
  induction lines with
  | nil => simp [onlyRemarks_nil]
  | cons line rest ih =>
    have hwritten : (Text.unlines (line :: rest)).toList =
        line.toList ++ '\n' :: (Text.unlines rest).toList := by simp
    rw [hwritten, onlyRemarks_append_break hfeed, ih, List.forall_mem_cons]

/-- A comment mark makes a comment of what follows it up to the next break. -/
theorem onlyRemarks_mark (hslash : p '/' = false) (hblank : p ' ' = false) (line : List Char) :
    OnlyRemarks p ('/' :: '/' :: ' ' :: line) ↔
      ∀ part ∈ (line.splitOnP p).tail, part ≠ [] → IsRemark part := by
  cases hsplit : line.splitOnP p with
  | nil => exact absurd hsplit (List.splitOnP_ne_nil p line)
  | cons first rest =>
    have hmark : ('/' :: '/' :: ' ' :: line).splitOnP p = ('/' :: '/' :: ' ' :: first) :: rest := by
      simp [List.splitOnP_cons_eq_if_modifyHead, hslash, hblank, hsplit]
    have hfirst : IsRemark ('/' :: '/' :: ' ' :: first) := ⟨' ' :: first, rfl⟩
    rw [OnlyRemarks, hmark, List.forall_mem_cons]
    exact ⟨fun h => h.2, fun h => ⟨fun _ => hfirst, h⟩⟩

end Breaks

namespace SourceFile

theorem onlyRemarks_headerLine {p : Char → Bool} (hslash : p '/' = false) (hblank : p ' ' = false)
    (line : List Char) :
    OnlyRemarks p (headerLine line).toList ↔
      ∀ part ∈ (line.splitOnP p).tail, part ≠ [] → IsRemark part := by
  rw [headerLine]
  split
  · next hempty =>
    obtain rfl := List.isEmpty_iff.mp hempty
    simp [OnlyRemarks, IsRemark, List.splitOnP_cons_eq_if_modifyHead, hslash]
  · have hmark : ("// " ++ String.ofList line).toList = '/' :: '/' :: ' ' :: line := by simp
    rw [hmark]
    exact onlyRemarks_mark hslash hblank line

/-! ### The top of a file -/

/-- What a header puts in front of the declarations, given whether there are none. -/
def topText (header : String) (empty : Bool) : String :=
  Text.unlines ((Text.lines header.toList).map headerLine) ++ if empty then "" else "\n"

/-- A header stands in front of what the file is without it. -/
theorem render_withHeader (file : SourceFile) (indent : Indent) (header : String) :
    (file.withHeader (some header)).render indent =
      topText header file.body.isEmpty ++ (file.withHeader none).render indent := by
  have hlines : ((headerRows header).map (Row.render indent)) =
      (Text.lines header.toList).map headerLine := by
    simp [headerRows, Row.render, Buffer.margin, Function.comp_def]
  have hrows : layout indent (topRows (some header) file.body.isEmpty) =
      topText header file.body.isEmpty := by
    rw [topRows, layout_append, layout, hlines, topText]
    cases file.body.isEmpty <;> rfl
  rw [render_eq, render_eq, rows, rows, layout_append, layout_append, ← hrows]
  exact congrArg _ String.empty_append.symm

theorem onlyRemarks_topText {p : Char → Bool} (hfeed : p '\n' = true) (hslash : p '/' = false)
    (hblank : p ' ' = false) (header : String) (empty : Bool) :
    OnlyRemarks p (topText header empty).toList ↔
      ∀ line ∈ Text.lines header.toList,
        ∀ part ∈ (line.splitOnP p).tail, part ≠ [] → IsRemark part := by
  have hlines : OnlyRemarks p (topText header empty).toList ↔
      OnlyRemarks p (Text.unlines ((Text.lines header.toList).map headerLine)).toList := by
    cases empty with
    | true => simp [topText]
    | false =>
      rw [topText, String.toList_append]
      exact (onlyRemarks_append_break hfeed _ []).trans (and_iff_left onlyRemarks_nil)
  rw [hlines, onlyRemarks_unlines hfeed, List.forall_mem_map]
  exact forall₂_congr fun line _ => onlyRemarks_headerLine hslash hblank line

theorem tail_splitOnP {p : Char → Bool} {line : List Char} (h : ∀ c ∈ line, p c = false) :
    (line.splitOnP p).tail = [] := by
  rw [List.splitOnP_eq_singleton h, List.tail_cons]

/-- **A header that breaks at line feeds only** stays inside comments. -/
theorem onlyRemarks_of_breaksAtFeeds {header : String}
    (h : Text.BreaksAtFeeds header.toList) (empty : Bool) :
    OnlyRemarks Text.isScriptBreak (topText header empty).toList := by
  rw [onlyRemarks_topText (by decide) (by decide) (by decide)]
  intro line hline part hpart
  rw [tail_splitOnP (Text.isScriptBreak_of_mem_lines h hline)] at hpart
  exact absurd hpart List.not_mem_nil

/-- **Exactly which headers stay inside comments.** What a header puts in front of the declarations
is a comment on every line that ends at a line feed. It is one on every line of a script as well
exactly if, in each line of the header, what follows a break of a script is nothing or a comment
already; and this is so if the header breaks at line feeds only. -/
theorem header_commented_iff (file : SourceFile) (indent : Indent) (header : String) :
    ∃ top : List Char,
      ((file.withHeader (some header)).render indent).toList =
        top ++ ((file.withHeader none).render indent).toList ∧
      OnlyRemarks (· = '\n') top ∧
      (OnlyRemarks Text.isScriptBreak top ↔
        ∀ line ∈ Text.lines header.toList,
          ∀ part ∈ (line.splitOnP Text.isScriptBreak).tail, part ≠ [] → IsRemark part) ∧
      (Text.BreaksAtFeeds header.toList → OnlyRemarks Text.isScriptBreak top) := by
  refine ⟨(topText header file.body.isEmpty).toList, ?_, ?_, ?_, fun h => ?_⟩
  · rw [render_withHeader, String.toList_append]
  · rw [onlyRemarks_topText (by decide) (by decide) (by decide)]
    intro line hline part hpart
    have hplain : ∀ c ∈ line, decide (c = '\n') = false := by
      rintro c hc
      rw [decide_eq_false_iff_not]
      rintro rfl
      exact Text.notMem_of_mem_lines hline hc
    rw [tail_splitOnP hplain] at hpart
    exact absurd hpart List.not_mem_nil
  · exact onlyRemarks_topText (by decide) (by decide) (by decide) header _
  · exact onlyRemarks_of_breaksAtFeeds h _

/-- Behind a carriage return that stands alone, a header is code. -/
theorem not_every_header_commented :
    ¬ ∀ (file : SourceFile) (indent : Indent) (header : String) (top : List Char),
      ((file.withHeader (some header)).render indent).toList =
          top ++ ((file.withHeader none).render indent).toList →
        OnlyRemarks Text.isScriptBreak top := by
  intro h
  have hcode := h (new.add (.record ⟨"A", none, []⟩)) .standard "a\rconst b = 1;"
    "// a\rconst b = 1;\n\n".toList (by decide)
  have hline : IsRemark "const b = 1;".toList :=
    hcode _ (by decide) (by decide)
  exact absurd hline (by rw [IsRemark]; decide)

end SourceFile

end TypeScript

end SchemaTypes
