import SchemaTypes.Code.Comment
import SchemaTypes.Code.Fragment
import SchemaTypes.Code.Indent

/-!
# Laying out code

A buffer holds the text written so far, the style of indentation and the current level. Lines are
written behind the indentation of the current level; blank lines carry none.

## Main definitions

* `Code.Buffer`: the text so far
* `Code.Buffer.line`, `blank`, `comment`: what is written
* `Code.Buffer.deeper`, `shallower`: changes of the level
* `Code.Buffer.apply`, `applyAll`: whole fragments
-/

namespace SchemaTypes

namespace Code

/-- Code that is being written. -/
structure Buffer where
  indent : Indent
  level : Nat
  text : String

namespace Buffer

/-- Nothing written yet. -/
def new (indent : Indent) : Buffer where
  indent := indent
  level := 0
  text := ""

/-- The indentation of a level. -/
def margin (indent : Indent) : Nat → String
  | 0 => ""
  | level + 1 => indent.unit ++ margin indent level

/-- Writes a line at the current level. -/
def line (buffer : Buffer) (text : String) : Buffer :=
  { buffer with text := buffer.text ++ margin buffer.indent buffer.level ++ text ++ "\n" }

/-- Writes an empty line. -/
def blank (buffer : Buffer) : Buffer :=
  { buffer with text := buffer.text ++ "\n" }

/-- Goes one level deeper. -/
def deeper (buffer : Buffer) : Buffer :=
  { buffer with level := buffer.level + 1 }

/-- Goes one level back, if there is one. -/
def shallower (buffer : Buffer) : Buffer :=
  { buffer with level := buffer.level - 1 }

/-- Writes a documentation comment. -/
def comment (buffer : Buffer) (text : String) : Buffer :=
  (commentLines text).foldl line buffer

mutual

/-- Writes a fragment. -/
def apply (buffer : Buffer) : Fragment → Buffer
  | .line text => buffer.line text
  | .blank => buffer.blank
  | .comment text => buffer.comment text
  | .block header body close =>
    let inner := applyAll (buffer.line header).deeper body
    match close with
    | some text => inner.shallower.line text
    | none => inner.shallower

/-- Writes fragments one after another. -/
def applyAll (buffer : Buffer) : List Fragment → Buffer
  | [] => buffer
  | fragment :: rest => applyAll (apply buffer fragment) rest

end

end Buffer

end Code

end SchemaTypes
