import SchemaTypes.Code.Buffer
import SchemaTypes.Proofs.Text.Lines

/-!
# The rows of laid out code

Writing fragments changes the level and brings it back. Here the level is followed on paper instead:
fragments come to rows, each with the level it stands at, and writing the fragments is writing their
rows behind what is there.

## Main definitions

* `Code.Row`: a line and its level
* `Code.Fragment.rows`, `Code.rowsOf`: the rows of fragments
* `Code.Buffer.write`: a buffer with rows behind its text

## Main results

* `Code.Buffer.applyAll_eq`: writing fragments is writing their rows
-/

namespace SchemaTypes

namespace Code

/-! ### Rows -/

/-- The indentation of a level is that of one level so many times. -/
theorem margin_eq (indent : Indent) (level : Nat) :
    Buffer.margin indent level = String.join (List.replicate level indent.unit) := by
  induction level with
  | zero => rfl
  | succ level ih => rw [Buffer.margin, List.replicate_succ, String.join_cons, ih]

/-- A line of laid out code: a text that stands at a level, or nothing at all. -/
inductive Row
  | line (level : Nat) (text : String)
  | blank

/-- A row as it is written, without the break behind it. -/
def Row.render (indent : Indent) : Row → String
  | .line level text => Buffer.margin indent level ++ text
  | .blank => ""

/-- The rows of a comment at a level. -/
def commentRows (level : Nat) (text : String) : List Row :=
  (commentLines text).map (.line level)

mutual

/-- The rows of a fragment that starts at a level. -/
def Fragment.rows (level : Nat) : Fragment → List Row
  | .line text => [.line level text]
  | .blank => [.blank]
  | .comment text => commentRows level text
  | .block header body close =>
    .line level header :: (rowsOf (level + 1) body ++ close.toList.map (.line level))

/-- The rows of fragments one after another, all at one level. -/
def rowsOf (level : Nat) : List Fragment → List Row
  | [] => []
  | fragment :: rest => fragment.rows level ++ rowsOf level rest

end

theorem rowsOf_append (level : Nat) (xs ys : List Fragment) :
    rowsOf level (xs ++ ys) = rowsOf level xs ++ rowsOf level ys := by
  induction xs with
  | nil => rfl
  | cons fragment rest ih => rw [List.cons_append, rowsOf, rowsOf, ih, List.append_assoc]

/-- The text of rows. -/
def layout (indent : Indent) (rows : List Row) : String :=
  Text.unlines (rows.map (Row.render indent))

theorem layout_append (indent : Indent) (xs ys : List Row) :
    layout indent (xs ++ ys) = layout indent xs ++ layout indent ys := by
  rw [layout, List.map_append, Text.unlines_append]
  rfl

namespace Buffer

/-! ### Writing rows -/

/-- The buffer with rows behind its text. -/
def write (buffer : Buffer) (rows : List Row) : Buffer :=
  { buffer with text := buffer.text ++ layout buffer.indent rows }

@[simp] theorem write_level (buffer : Buffer) (rows : List Row) :
    (buffer.write rows).level = buffer.level := rfl

@[simp] theorem write_nil (buffer : Buffer) : buffer.write [] = buffer := by
  simp [write, layout]

@[simp] theorem write_write (buffer : Buffer) (xs ys : List Row) :
    (buffer.write xs).write ys = buffer.write (xs ++ ys) := by
  simp [write, layout_append, String.append_assoc]

theorem line_eq (buffer : Buffer) (text : String) :
    buffer.line text = buffer.write [.line buffer.level text] := by
  simp [line, write, layout, Row.render, String.append_assoc]

theorem blank_eq (buffer : Buffer) : buffer.blank = buffer.write [.blank] := by
  simp [blank, write, layout, Row.render]

/-- What is written a level deeper leaves the level alone. -/
theorem shallower_write (buffer : Buffer) (rows : List Row) :
    (buffer.deeper.write rows).shallower = buffer.write rows := by
  rw [shallower, deeper, write, write, Nat.add_sub_cancel]

/-- Lines one after another stay at the level of the buffer. -/
theorem foldl_line (buffer : Buffer) (lines : List String) :
    lines.foldl line buffer = buffer.write (lines.map (.line buffer.level)) := by
  induction lines generalizing buffer with
  | nil => rw [List.foldl_nil, List.map_nil, write_nil]
  | cons first rest ih =>
    rw [List.foldl_cons, ih, line_eq, write_write, write_level, List.map_cons,
      List.singleton_append]

theorem comment_eq (buffer : Buffer) (text : String) :
    buffer.comment text = buffer.write (commentRows buffer.level text) :=
  foldl_line buffer (commentLines text)

/-! ### Writing fragments -/

mutual

/-- Writing a fragment is writing its rows. -/
theorem apply_eq (buffer : Buffer) (fragment : Fragment) :
    buffer.apply fragment = buffer.write (fragment.rows buffer.level) := by
  match fragment with
  | .line text => exact line_eq buffer text
  | .blank => exact blank_eq buffer
  | .comment text => exact comment_eq buffer text
  | .block header body close =>
    have hinner : (applyAll (buffer.line header).deeper body).shallower =
        buffer.write (.line buffer.level header :: rowsOf (buffer.level + 1) body) := by
      rw [applyAll_eq, shallower_write, line_eq, write_write, List.singleton_append]
      rfl
    cases close with
    | none =>
      rw [apply, hinner, Fragment.rows, Option.toList_none, List.map_nil, List.append_nil]
    | some text =>
      rw [apply, hinner, line_eq, write_write, write_level, Fragment.rows]
      rfl

/-- **Writing fragments is writing their rows.** The level is what it was. -/
theorem applyAll_eq (buffer : Buffer) (fragments : List Fragment) :
    buffer.applyAll fragments = buffer.write (rowsOf buffer.level fragments) := by
  match fragments with
  | [] => rw [applyAll, rowsOf, write_nil]
  | fragment :: rest =>
    rw [applyAll, applyAll_eq, apply_eq, write_write, write_level, rowsOf]

end

end Buffer

end Code

end SchemaTypes
