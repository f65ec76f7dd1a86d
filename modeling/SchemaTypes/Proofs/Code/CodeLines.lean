import SchemaTypes.Proofs.Code.Layout

/-!
# The lines of code in a text

Indentation and comments say nothing to a compiler. A line that starts, behind its indentation, with
a slash or a star belongs to a comment, and leaving out these lines and the empty ones leaves the
code. This looks at one line at a time: comments are laid out so that each of their lines can be
told by its first mark, and nobody has to look for the line where the comment began.

## Main definitions

* `Code.codeOf`: the code of a line
* `Code.codeLines`: the lines of code in a text
* `Code.Row.code`, `Code.Row.Unbroken`: the code of a row, and whether it is a single line

## Main results

* `Code.codeLines_layout`: the code of a text is that of its rows
* `Code.codeOf_commentLine`: there is no code in a comment, whatever its text
-/

namespace SchemaTypes

namespace Code

/-- Whether a character is part of an indentation. -/
def isMargin (c : Char) : Bool :=
  c = ' ' || c = '\t'

/-- Whether a line without its indentation is code. -/
def isCode : List Char → Bool
  | [] => false
  | c :: _ => c ≠ '/' && c ≠ '*'

/-- The code of a line, if there is any. -/
def codeOf (line : List Char) : Option (List Char) :=
  some (line.dropWhile isMargin) |>.filter isCode

/-- The lines of code in a text, without their indentation. -/
def codeLines (text : String) : List (List Char) :=
  (text.toList.splitOn '\n').filterMap codeOf

/-! ### Single lines -/

/-- A line that starts with a mark of its own is code as it stands. -/
theorem codeOf_cons {c : Char} {rest : List Char} (hmargin : isMargin c = false)
    (hcode : isCode (c :: rest) = true) : codeOf (c :: rest) = some (c :: rest) := by
  rw [codeOf, List.dropWhile_cons_of_neg (by simp [hmargin]), Option.filter_some, if_pos hcode]

/-- Indentation is not code. -/
theorem codeOf_append {margin : List Char} (h : ∀ c ∈ margin, isMargin c = true)
    (line : List Char) : codeOf (margin ++ line) = codeOf line := by
  rw [codeOf, List.dropWhile_append_of_pos h, codeOf]

theorem isMargin_of_mem_margin {indent : Indent} {level : Nat} {c : Char}
    (h : c ∈ (Buffer.margin indent level).toList) : isMargin c = true := by
  induction level with
  | zero => simp [Buffer.margin] at h
  | succ level ih =>
    rw [Buffer.margin, String.toList_append, List.mem_append] at h
    rcases h with h | h
    · cases indent with
      | tab =>
        obtain rfl : c = '\t' := by simpa [Indent.unit] using h
        decide
      | spaces width =>
        rw [Indent.unit, String.toList_ofList] at h
        obtain rfl := List.eq_of_mem_replicate h
        decide
    · exact ih h

/-! ### Rows -/

namespace Row

/-- The code of a row, which is the same at every level. -/
def code : Row → Option (List Char)
  | .line _ text => codeOf text.toList
  | .blank => none

/-- A row that stays on one line. -/
def Unbroken : Row → Prop
  | .line _ text => '\n' ∉ text.toList
  | .blank => True

theorem codeOf_render (indent : Indent) (row : Row) :
    codeOf (row.render indent).toList = row.code := by
  cases row with
  | line level text =>
    rw [render, String.toList_append, codeOf_append fun _ => isMargin_of_mem_margin, code]
  | blank => rfl

theorem Unbroken.notMem_render {row : Row} (h : row.Unbroken) (indent : Indent) :
    '\n' ∉ (row.render indent).toList := by
  cases row with
  | line level text =>
    rw [render, String.toList_append, List.mem_append]
    rintro (hmargin | htext)
    · exact absurd (isMargin_of_mem_margin hmargin) (by decide)
    · exact h htext
  | blank => exact List.not_mem_nil

end Row

/-- **The code of a text is that of its rows.** The style of indentation leaves no trace. -/
theorem codeLines_layout (indent : Indent) {rows : List Row} (h : ∀ row ∈ rows, row.Unbroken) :
    codeLines (layout indent rows) = rows.filterMap Row.code := by
  have hlines : ∀ line ∈ rows.map (Row.render indent), '\n' ∉ line.toList := by
    intro line hline
    obtain ⟨row, hrow, rfl⟩ := List.mem_map.mp hline
    exact (h row hrow).notMem_render indent
  rw [codeLines, layout, Text.splitOn_unlines hlines, List.filterMap_append, List.map_map,
    List.filterMap_map]
  have hcode : codeOf ∘ String.toList ∘ Row.render indent = Row.code :=
    funext fun row => Row.codeOf_render indent row
  rw [hcode]
  exact List.append_nil _

/-! ### Comments -/

theorem codeOf_starLine (line : List Char) : codeOf (starLine line).toList = none := by
  rw [starLine]
  split
  · rfl
  · rw [String.toList_append]
    rfl

/-- The lines a comment is made of. What stands in them is no longer part of another line. -/
theorem mem_commentLines {text line : String} (h : line ∈ commentLines text) :
    line = "/**" ∨ line = " */" ∨ (∃ inner, '\n' ∉ inner ∧ line = starLine inner) ∨
      ∃ shown, '\n' ∉ shown ∧ line = "/** " ++ String.ofList shown ++ " */" := by
  simp only [commentLines] at h
  split at h
  · exact absurd h List.not_mem_nil
  split at h
  · rw [List.mem_cons, List.mem_append, List.mem_map, List.mem_singleton] at h
    rcases h with rfl | ⟨inner, hinner, rfl⟩ | rfl
    · exact .inl rfl
    · exact .inr (.inr (.inl ⟨inner, Text.notMem_of_mem_lines hinner, rfl⟩))
    · exact .inr (.inl rfl)
  · next hshown =>
    obtain rfl := List.mem_singleton.mp h
    exact .inr (.inr (.inr ⟨_, by simpa using hshown, rfl⟩))

/-- **There is no code in a comment**, whatever its text. -/
theorem codeOf_commentLine {text line : String} (h : line ∈ commentLines text) :
    codeOf line.toList = none := by
  rcases mem_commentLines h with rfl | rfl | ⟨inner, -, rfl⟩ | ⟨shown, -, rfl⟩
  · rfl
  · rfl
  · exact codeOf_starLine inner
  · rw [String.toList_append, String.toList_append]
    rfl

/-- A line of a comment stays on one line. -/
theorem notMem_of_mem_commentLines {text line : String} (h : line ∈ commentLines text) :
    '\n' ∉ line.toList := by
  rcases mem_commentLines h with rfl | rfl | ⟨inner, hinner, rfl⟩ | ⟨shown, hshown, rfl⟩
  · decide
  · decide
  · rw [starLine]
    split <;> simp [hinner]
  · simp [hshown]

theorem unbroken_of_mem_commentRows {level : Nat} {text : String} {row : Row}
    (h : row ∈ commentRows level text) : row.Unbroken := by
  obtain ⟨line, hline, rfl⟩ := List.mem_map.mp h
  exact notMem_of_mem_commentLines hline

theorem filterMap_code_commentRows (level : Nat) (text : String) :
    (commentRows level text).filterMap Row.code = [] := by
  rw [List.filterMap_eq_nil_iff]
  intro row hrow
  obtain ⟨line, hline, rfl⟩ := List.mem_map.mp hrow
  exact codeOf_commentLine hline

end Code

end SchemaTypes
