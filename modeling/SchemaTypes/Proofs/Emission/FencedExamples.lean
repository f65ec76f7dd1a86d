import SchemaTypes.Emission.Describe
import SchemaTypes.Proofs.Json.Pretty
import SchemaTypes.Proofs.Json.Protected
import Mathlib

/-!
# Examples in comments

The example of an array or an object is written into the comment of its node as JSON, in a fenced
block at the end. Between the example and whoever reads the comment stand the breaking up of end
marks, the lines of the comment and what is put in front of each of them. Nothing of this is lost on
the example: taken from between the fences, it reads as the value that it was.

## Main definitions

* `Emission.unstarred`: a line of a comment without what stands in front of it
* `Emission.fenced`: the lines of the last fenced block

## Main results

* `Emission.fenced_eq`: the lines of a block at the end
* `Emission.ofText_fenced_comment`: the example in the comment of a node reads back
-/

namespace SchemaTypes

namespace Emission

open Code Json Schema

/-! ### Taking a block out of a comment -/

/-- The line that opens a block. -/
def opening : List Char := ['`', '`', '`', 'j', 's', 'o', 'n']

/-- The line that closes a block. -/
def closing : List Char := ['`', '`', '`']

/-- A line of a comment without its indentation and the star in front of it. -/
def unstarred (margin line : List Char) : List Char :=
  let bare := (line.dropPrefix? margin).getD line
  (bare.dropPrefix? [' ', '*', ' ']).getD bare

/-- The lines behind the last opening line and before the last closing line. -/
def fenced (lines : List (List Char)) : List (List Char) :=
  (((lines.reverse.takeWhile (· ≠ opening)).dropWhile (· ≠ closing)).drop 1).reverse

/-- The lines of a block behind which nothing else is opened or closed. -/
theorem fenced_eq {before rows after : List (List Char)} (hrows : opening ∉ rows)
    (hopening : opening ∉ after) (hclosing : closing ∉ after) :
    fenced (before ++ opening :: (rows ++ closing :: after)) = rows := by
  have hbehind : ∀ line ∈ after.reverse ++ closing :: rows.reverse,
      decide (line ≠ opening) = true := by
    intro line hline
    refine decide_eq_true ?_
    rintro rfl
    rw [List.mem_append, List.mem_reverse, List.mem_cons, List.mem_reverse] at hline
    exact hline.elim hopening fun h => h.elim (by decide) hrows
  have hlast : ∀ line ∈ after.reverse, decide (line ≠ closing) = true := by
    intro line hline
    refine decide_eq_true ?_
    rintro rfl
    exact hclosing (List.mem_reverse.mp hline)
  have hreverse : (before ++ opening :: (rows ++ closing :: after)).reverse =
      (after.reverse ++ closing :: rows.reverse) ++ opening :: before.reverse := by simp
  rw [fenced, hreverse, List.takeWhile_append_of_pos hbehind,
    List.takeWhile_cons_of_neg (by simp), List.append_nil, List.dropWhile_append_of_pos hlast,
    List.dropWhile_cons_of_neg (by simp), List.drop_succ_cons, List.drop_zero,
    List.reverse_reverse]

section Unstarred

variable (margin : List Char)

theorem unstarred_append (line : List Char) :
    unstarred margin (margin ++ line) = (line.dropPrefix? [' ', '*', ' ']).getD line := by
  rw [unstarred, List.dropPrefix?_append_of_beq line (beq_self_eq_true margin)]
  rfl

theorem unstarred_starLine {line : List Char} (h : line ≠ []) :
    unstarred margin (margin ++ (starLine line).toList) = line := by
  have hstar : (starLine line).toList = [' ', '*', ' '] ++ line := by
    rw [starLine, if_neg fun hempty => h (List.isEmpty_iff.mp hempty)]
    simp
  rw [unstarred_append, hstar, List.dropPrefix?_append_of_beq line (beq_self_eq_true _)]
  rfl

/-- The last line of a comment shows its mark. -/
theorem unstarred_last : unstarred margin (margin ++ [' ', '*', '/']) = [' ', '*', '/'] := by
  rw [unstarred_append]
  decide

theorem unstarred_nil : unstarred margin [] = [] := by
  have hbare : ([].dropPrefix? margin).getD [] = ([] : List Char) := by
    cases margin <;> rfl
  rw [unstarred, hbare]
  rfl

theorem exists_front_of_block (before : List (List Char)) {rows : List (List Char)}
    (hrows : ∀ row ∈ rows, row ≠ []) :
    ∃ front, (("/**" :: ((before ++ opening :: (rows ++ [closing])).map starLine ++ [" */"])).map
        fun line => margin ++ line.toList).map (unstarred margin) ++ [unstarred margin []] =
      front ++ opening :: (rows ++ closing :: [[' ', '*', '/'], []]) := by
  have hblock : ∀ line ∈ opening :: (rows ++ [closing]), line ≠ [] := by
    refine List.forall_mem_cons.mpr ⟨by decide, List.forall_mem_append.mpr ⟨hrows, ?_⟩⟩
    exact List.forall_mem_singleton.mpr (by decide)
  have hkept : (opening :: (rows ++ [closing])).map
      (fun line => unstarred margin (margin ++ (starLine line).toList)) =
      opening :: (rows ++ [closing]) :=
    (List.map_congr_left fun line h => unstarred_starLine margin (hblock line h)).trans
      (List.map_id _)
  have hlast : unstarred margin (margin ++ " */".toList) = [' ', '*', '/'] := unstarred_last margin
  refine ⟨unstarred margin (margin ++ "/**".toList) ::
    before.map fun line => unstarred margin (margin ++ (starLine line).toList), ?_⟩
  rw [List.map_map, List.map_cons, List.map_append, List.map_map, List.map_append,
    List.map_singleton, Function.comp_assoc]
  simp only [Function.comp_def, hkept, hlast, unstarred_nil]
  simp

end Unstarred

/-! ### The comment of a node with a fenced example -/

/-- What stands in front of the block. -/
def beforeBlock (node : Node) : List Char :=
  (match node.description with
    | some text => (text ++ "\n").toList
    | none => []) ++ "\nExample:".toList

/-- The documentation of a node whose example is fenced, behind its leading break. -/
def fencedText (node : Node) (value : Value) : List Char :=
  beforeBlock node ++ '\n' :: (opening ++ '\n' :: (value.pretty.toList ++ '\n' :: closing))

section Describe

variable {node : Node} {value : Value}

theorem toList_describe (htype : node.type = .array ∨ node.type = .object)
    (hsample : node.sample = some value) :
    (describe node).toList = '\n' :: fencedText node value := by
  have hblock : describeSample node.type value = "\n```json\n" ++ value.pretty ++ "\n```" := by
    rcases htype with htype | htype <;> rw [htype] <;> rfl
  rw [describe, hsample, fencedText, beforeBlock]
  dsimp only
  rw [hblock]
  cases node.description <;> simp [opening, closing]

theorem trimBreaks_describe (htype : node.type = .array ∨ node.type = .object)
    (hsample : node.sample = some value) :
    Text.trimBreaks (describe node).toList = fencedText node value := by
  have hlast : (fencedText node value).getLast? ≠ some '\n' := by
    have hends : fencedText node value = (beforeBlock node ++ '\n' ::
        (opening ++ '\n' :: (value.pretty.toList ++ ['\n', '`', '`']))) ++ ['`'] := by
      simp [fencedText, closing]
    rw [hends, List.getLast?_append_of_ne_nil _ (List.cons_ne_nil _ _)]
    decide
  rw [toList_describe htype hsample, Text.trimBreaks_break hlast]

/-- The lines of the protected text: the block is the end of it, and the rows between its fences are
those of the protected JSON text. -/
theorem lines_fencedText (node : Node) (value : Value) :
    Text.lines (protectEnd (fencedText node value)) =
      Text.lines (protectEnd (beforeBlock node) ++ ['\n']) ++
        opening :: ((protectEnd value.pretty.toList).splitOn '\n' ++ [closing]) := by
  have hopening : protectEnd opening = opening := by decide
  have hclosing : protectEnd closing = closing := by decide
  have hlast : Text.lines closing = [closing] := by decide
  have hfirst : ∀ rest, Text.lines (opening ++ '\n' :: rest) = opening :: Text.lines rest :=
    Text.lines_feed (by decide) (by decide)
  rw [fencedText, protectEnd_feed, protectEnd_feed, protectEnd_feed, hopening, hclosing,
    Text.lines_append_feed, hfirst, value.laid_pretty.protectEnd.lines, hlast]

theorem commentLines_describe (htype : node.type = .array ∨ node.type = .object)
    (hsample : node.sample = some value) :
    commentLines (describe node) =
      "/**" :: ((Text.lines (protectEnd (beforeBlock node) ++ ['\n']) ++
        opening :: ((protectEnd value.pretty.toList).splitOn '\n' ++ [closing])).map starLine ++
          [" */"]) := by
  have htrimmed := trimBreaks_describe htype hsample
  have hfence : '`' ∈ fencedText node value := by simp [fencedText, opening]
  have hfeed : '\n' ∈ fencedText node value := by simp [fencedText]
  have hshown : commentLines (describe node) ≠ [] := by
    rw [ne_eq, commentLines_eq_nil_iff, htrimmed]
    intro hblank
    exact absurd (hblank _ hfence) (by decide)
  rw [commentLines_eq hshown, htrimmed, commentText, if_pos hfeed, lines_fencedText, ← starLine_eq]

/-- The block of the comment holds the rows of the protected JSON text. -/
theorem fenced_comment (htype : node.type = .array ∨ node.type = .object)
    (hsample : node.sample = some value) (margin : List Char) :
    fenced (((commentLines (describe node)).map fun line => margin ++ line.toList).map
        (unstarred margin) ++ [unstarred margin []]) =
      (protectEnd value.pretty.toList).splitOn '\n' := by
  have hrow := value.laid_pretty.protectEnd.isRow_of_mem_splitOn
  rw [commentLines_describe htype hsample]
  generalize (protectEnd value.pretty.toList).splitOn '\n' = rows at hrow ⊢
  obtain ⟨front, hfront⟩ := exists_front_of_block margin
    (Text.lines (protectEnd (beforeBlock node) ++ ['\n'])) fun row h => (hrow row h).ne_nil
  rw [hfront]
  exact fenced_eq (fun h => (hrow opening h).start rfl) (by decide) (by decide)

end Describe

/-- **The example in the comment of a node reads back**, provided that it reads back from its JSON
text alone. Whatever the description of the node and the indentation of the comment, the lines
between the last fences are the example. -/
theorem ofText_fenced_comment {node : Node} {value : Value}
    (htype : node.type = .array ∨ node.type = .object) (hsample : node.sample = some value)
    (hread : Value.ofText value.pretty.toList = .ok value) (buffer : Buffer) :
    ∃ written, buffer.comment (describe node) = { buffer with text := buffer.text ++ written } ∧
      Value.ofText (['\n'].intercalate (fenced ((written.toList.splitOn '\n').map
        (unstarred (Buffer.margin buffer.indent buffer.level).toList)))) = .ok value := by
  refine ⟨_, Buffer.comment_eq buffer (describe node), ?_⟩
  obtain ⟨margin, hmargin⟩ : ∃ margin, margin = Buffer.margin buffer.indent buffer.level := ⟨_, rfl⟩
  have hlines : ∀ line ∈ (commentLines (describe node)).map (margin ++ ·), '\n' ∉ line.toList := by
    intro line hline
    obtain ⟨text, htext, rfl⟩ := List.mem_map.mp hline
    rw [String.toList_append, List.mem_append, hmargin]
    rintro (hfeed | hfeed)
    · exact absurd (isMargin_of_mem_margin hfeed) (by decide)
    · exact notMem_of_mem_commentLines htext hfeed
  have hsplit : (layout buffer.indent (commentRows buffer.level (describe node))).toList.splitOn
      '\n' = ((commentLines (describe node)).map fun line => margin.toList ++ line.toList) ++
        [[]] := by
    rw [layout_commentRows, ← hmargin, Text.splitOn_unlines hlines, List.map_map]
    congr 2
    funext line
    exact String.toList_append
  rw [hsplit, ← hmargin, List.map_append, List.map_singleton,
    fenced_comment htype hsample margin.toList, List.intercalate_splitOn]
  exact Value.ofText_protectEnd hread

/-- A value with an end mark in a key and in a text, and with a line break, a backslash and
backticks. -/
def awkward : Value :=
  .object [("*/", .array [.text "a*/\n\\", .array []]), ("```", .text "```\n*/")]

/-- A node whose description closes comments and blocks, with the awkward value as its example. -/
def awkwardNode : Node :=
  { Node.primitive .object with description := some "*/\n```", sample := some awkward }

/-- The awkward value reads back from the comment of its node. -/
theorem ofText_fenced_comment_awkward :
    Value.ofText awkward.pretty.toList = .ok awkward ∧
      ∃ written, ((Buffer.new (.spaces 2)).deeper.comment (describe awkwardNode)).text = written ∧
        Value.ofText (['\n'].intercalate (fenced ((written.toList.splitOn '\n').map
          (unstarred [' ', ' '])))) = .ok awkward := by
  have hread : Value.ofText awkward.pretty.toList = .ok awkward := by cbv
  have htype : awkwardNode.type = .array ∨ awkwardNode.type = .object := .inr rfl
  obtain ⟨written, hcomment, hvalue⟩ :=
    ofText_fenced_comment htype rfl hread (Buffer.new (.spaces 2)).deeper
  refine ⟨hread, written, ?_, hvalue⟩
  rw [hcomment]
  exact String.empty_append

end Emission

end SchemaTypes
