/-!
# Positions in a text

A place in a text is a count of UTF-8 bytes from its start. It is reported as a line, counted from
one, and a column, the bytes between the start of that line and the place. A label goes the other
way: from a line and a column to the byte it is attached to.

## Main definitions

* `Text.byteLength`: how many bytes a text takes
* `Text.linesBefore`, `Text.lineStart`: the line feeds before a byte, and where its line starts
* `Text.LineColumn.ofByte`: the line and column reported for a byte
* `Text.labelByte`: the byte a label for a line and column is attached to
-/

namespace SchemaTypes

namespace Text

/-- How many bytes the text takes in UTF-8. -/
def byteLength : List Char → Nat
  | [] => 0
  | c :: cs => c.utf8Size + byteLength cs

@[simp] theorem byteLength_append (s t : List Char) :
    byteLength (s ++ t) = byteLength s + byteLength t := by
  induction s with
  | nil => simp [byteLength]
  | cons c s ih => simp [byteLength, ih, Nat.add_assoc]

/-! ### From a byte to a line and a column -/

/-- The number of line feeds that start before byte `i`. -/
def linesBefore : Nat → List Char → Nat
  | _, [] => 0
  | i, c :: cs =>
    if i = 0 then 0 else (if c = '\n' then 1 else 0) + linesBefore (i - c.utf8Size) cs

/-- Where the line that holds byte `i` starts: behind the last line feed before the byte. -/
def lineStart : Nat → List Char → Nat
  | _, [] => 0
  | i, c :: cs =>
    if i = 0 then 0
    else if c = '\n' ∨ 0 < linesBefore (i - c.utf8Size) cs then
      c.utf8Size + lineStart (i - c.utf8Size) cs
    else 0

/-- A line, counted from one, and a column in bytes. -/
structure LineColumn where
  line : Nat
  column : Nat
deriving DecidableEq

/-- The line and column reported for byte `i`. -/
def LineColumn.ofByte (text : List Char) (i : Nat) : LineColumn where
  line := 1 + linesBefore i text
  column := i - lineStart i text

/-! ### From a line and a column to a byte -/

/-- How many bytes the first `n` lines take, their breaks included. -/
def bytesOfLines : Nat → List Char → Nat
  | 0, _ => 0
  | _, [] => 0
  | n + 1, c :: cs => c.utf8Size + (if c = '\n' then bytesOfLines n cs else bytesOfLines (n + 1) cs)

/-- The byte a label for the line and column is attached to: the one before the column, and never
one past the text. Lines are counted from one, so line zero has no label. -/
def labelByte (text : List Char) (place : LineColumn) : Option Nat :=
  if place.line = 0 then none
  else some (min (bytesOfLines (place.line - 1) text + (place.column - 1)) (byteLength text))

end Text

end SchemaTypes
