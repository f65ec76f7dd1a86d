import SchemaTypes.Text.Lines
import SchemaTypes.Unicode.Blank

/-!
# Documentation comments

A documentation comment stands between `/**` and `*/`: on one line if its text is one line,
otherwise with a star in front of every line. One leading line feed and all trailing ones are not
part of the text. A text that shows nothing has no comment. An end mark inside the text is broken up
by a backslash, so the comment ends where it is meant to.

## Main definitions

* `Code.protectEnd`: a text without end marks
* `Code.commentLines`: the lines of the comment for a text
-/

namespace SchemaTypes

namespace Code

/-- The text with a backslash inside each end mark. -/
def protectEnd : List Char → List Char
  | [] => []
  | c :: rest =>
    if c = '*' ∧ rest.head? = some '/' then '*' :: '\\' :: protectEnd rest
    else c :: protectEnd rest

/-- A line of a comment that spans several. -/
def starLine (line : List Char) : String :=
  if line.isEmpty then " *" else " * " ++ String.ofList line

/-- The lines of the comment for a text, before any indentation. -/
def commentLines (text : String) : List String :=
  let trimmed := Text.trimBreaks text.toList
  if Unicode.isBlankText trimmed then []
  else
    let shown := protectEnd trimmed
    if shown.contains '\n' then
      "/**" :: ((Text.lines shown).map starLine ++ [" */"])
    else ["/** " ++ String.ofList shown ++ " */"]

end Code

end SchemaTypes
