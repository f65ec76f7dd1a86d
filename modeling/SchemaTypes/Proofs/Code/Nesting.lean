import SchemaTypes.Proofs.Code.Layout

/-!
# Code in blocks

While fragments are written, each block takes the buffer a level deeper and has to bring it back,
since whatever follows is written at the level that is left. How deep a line stands is therefore
settled by all that is written before it, at least on the face of it.

Here it is settled by the fragments alone. A row has a depth, which counts the blocks around it, and
the level of the buffer is added to it. The rows of a block's body are the rows that the body has by
itself, one deeper each; rows of fragments one after another are just the rows of each. So code can
be put into a block, or behind other code, without a look at what is around it.

## Main definitions

* `Code.Row.raise`: a row so many levels deeper
* `Code.Nests`: what the rows of fragments have to be, each with its depth
* `Code.Row.written`: a row as it is written in code at a level

## Main results

* `Code.rowsOf_add`: fragments have the same rows at every level, but for the level
* `Code.nests_iff`: there is one way in which rows nest
* `Code.Buffer.applyAll_append`: fragments are written one after another
* `Code.Buffer.applyAll_layout`: what writing fragments appends
-/

namespace SchemaTypes

namespace Code

/-! ### Rows at a depth -/

/-- A row so many levels deeper. -/
def Row.raise (levels : Nat) : Row → Row
  | .line level text => .line (levels + level) text
  | .blank => .blank

theorem commentRows_add (levels level : Nat) (text : String) :
    commentRows (levels + level) text = (commentRows level text).map (Row.raise levels) := by
  rw [commentRows, commentRows, List.map_map]
  rfl

mutual

/-- A fragment has the same rows at every level, but for the level. -/
theorem Fragment.rows_add (levels level : Nat) (fragment : Fragment) :
    fragment.rows (levels + level) = (fragment.rows level).map (Row.raise levels) := by
  match fragment with
  | .line text => rfl
  | .blank => rfl
  | .comment text => exact commentRows_add levels level text
  | .block header body close =>
    have hclose : close.toList.map (Row.line (levels + level)) =
        (close.toList.map (Row.line level)).map (Row.raise levels) := by
      rw [List.map_map]
      rfl
    rw [Fragment.rows, Fragment.rows, Nat.add_assoc, rowsOf_add, hclose, ← List.map_append]
    rfl

/-- Fragments have the same rows at every level, but for the level. -/
theorem rowsOf_add (levels level : Nat) (fragments : List Fragment) :
    rowsOf (levels + level) fragments = (rowsOf level fragments).map (Row.raise levels) := by
  match fragments with
  | [] => rfl
  | fragment :: rest =>
    rw [rowsOf, rowsOf, Fragment.rows_add, rowsOf_add, List.map_append]

end

/-- The rows of a block: those of its body one deeper, between its header and its closing line. -/
theorem Fragment.rows_block (header : String) (body : List Fragment) (close : Option String) :
    Fragment.rows 0 (.block header body close) =
      .line 0 header :: ((rowsOf 0 body).map (.raise 1) ++ close.toList.map (.line 0)) := by
  rw [Fragment.rows, Nat.add_comm, rowsOf_add]

/-! ### What the rows of fragments have to be -/

/-- Rows nest: fragments have those of each, one after another, and each line is as deep as there
are blocks around it. -/
structure Nests (rows : List Fragment → List Row) : Prop where
  nil : rows [] = []
  append : ∀ fragments more, rows (fragments ++ more) = rows fragments ++ rows more
  line : ∀ text, rows [.line text] = [.line 0 text]
  blank : rows [.blank] = [.blank]
  comment : ∀ text, rows [.comment text] = (commentLines text).map (.line 0)
  block : ∀ header body close, rows [.block header body close] =
    .line 0 header :: ((rows body).map (.raise 1) ++ close.toList.map (.line 0))

theorem rowsOf_singleton (level : Nat) (fragment : Fragment) :
    rowsOf level [fragment] = fragment.rows level := by
  rw [rowsOf, rowsOf, List.append_nil]

theorem nests_rowsOf : Nests (rowsOf 0) where
  nil := rfl
  append := rowsOf_append 0
  line text := rowsOf_singleton 0 (.line text)
  blank := rowsOf_singleton 0 .blank
  comment text := rowsOf_singleton 0 (.comment text)
  block header body close := (rowsOf_singleton 0 _).trans (Fragment.rows_block header body close)

namespace Nests

variable {rows : List Fragment → List Row}

mutual

theorem rows_singleton (h : Nests rows) (fragment : Fragment) :
    rows [fragment] = fragment.rows 0 := by
  match fragment with
  | .line text => exact h.line text
  | .blank => exact h.blank
  | .comment text => exact h.comment text
  | .block header body close => rw [h.block, h.rows_eq body, Fragment.rows_block]

/-- There are no other rows that nest. -/
theorem rows_eq (h : Nests rows) (fragments : List Fragment) :
    rows fragments = rowsOf 0 fragments := by
  match fragments with
  | [] => exact h.nil
  | fragment :: rest =>
    rw [← List.singleton_append, h.append, h.rows_singleton, h.rows_eq rest]
    rfl

end

end Nests

theorem nests_iff {rows : List Fragment → List Row} : Nests rows ↔ rows = rowsOf 0 := by
  refine ⟨fun h => funext h.rows_eq, ?_⟩
  rintro rfl
  exact nests_rowsOf

/-! ### Rows as they are written -/

/-- A row as it is written in code at a level. A line stands behind the indentation for the level
and the depth of the line together, and a blank line behind none. -/
def Row.written (indent : Indent) (level : Nat) : Row → String
  | .line depth text =>
    String.join (List.replicate (level + depth) indent.unit) ++ text ++ "\n"
  | .blank => "\n"

theorem render_raise (indent : Indent) (level : Nat) (row : Row) :
    (row.raise level).render indent ++ "\n" = row.written indent level := by
  cases row with
  | line depth text => rw [Row.raise, Row.render, Row.written, margin_eq]
  | blank => rfl

theorem layout_raise (indent : Indent) (level : Nat) (rows : List Row) :
    layout indent (rows.map (.raise level)) =
      String.join (rows.map (Row.written indent level)) := by
  induction rows with
  | nil => rfl
  | cons row rest ih =>
    rw [layout, List.map_cons, List.map_cons, Text.unlines_cons, render_raise, List.map_cons,
      String.join_cons, ← ih]
    rfl

namespace Buffer

/-! ### Fragments one after another -/

/-- Fragments are written one after another. -/
theorem applyAll_append (buffer : Buffer) (fragments more : List Fragment) :
    buffer.applyAll (fragments ++ more) = (buffer.applyAll fragments).applyAll more := by
  induction fragments generalizing buffer with
  | nil => rfl
  | cons fragment rest ih => rw [List.cons_append, applyAll, ih, applyAll]

/-- **What writing fragments appends.** There is one way in which the rows of fragments nest.
Nothing of a buffer changes but its text, to which these rows are appended: a line behind the
indentation for the level of the buffer and the number of blocks around the line, and a blank line
as a line feed. Fragments behind others are written as if by a second call. -/
theorem applyAll_layout (buffer : Buffer) (fragments more : List Fragment) :
    (∀ rows, Nests rows ↔ rows = rowsOf 0) ∧
      buffer.applyAll fragments = { buffer with
        text := buffer.text ++
          String.join ((rowsOf 0 fragments).map (Row.written buffer.indent buffer.level)) } ∧
      buffer.applyAll (fragments ++ more) = (buffer.applyAll fragments).applyAll more := by
  have hrows : rowsOf buffer.level fragments = (rowsOf 0 fragments).map (.raise buffer.level) :=
    rowsOf_add buffer.level 0 fragments
  refine ⟨fun rows => nests_iff, ?_, applyAll_append buffer fragments more⟩
  rw [applyAll_eq, write, hrows, layout_raise]

/-- A block in a block, a level deep, and a blank line, which no indentation precedes. -/
example :
    ((Buffer.new .tab).deeper.applyAll
      [.block "a" [.blank, .block "b" [.line "c"] none] (some "d")]).text =
      "\ta\n\n\t\tb\n\t\t\tc\n\td\n" := by
  decide

end Buffer

end Code

end SchemaTypes
