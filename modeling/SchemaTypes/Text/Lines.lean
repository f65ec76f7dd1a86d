/-!
# The lines of a text

A line ends at a line feed, or at a carriage return and a line feed together. A carriage return
that no line feed follows belongs to its line. Nothing follows the last break of a text that ends
with one, so such a text has no empty line at its end, and the empty text has no lines.

## Main definitions

* `Text.lines`: the lines, without their breaks
* `Text.joined`: texts one after another with a separator between neighbours
* `Text.trimBreaks`: the text less one leading line feed and all trailing ones
-/

namespace SchemaTypes

namespace Text

/-- The lines of a text, without their breaks. -/
def lines : List Char → List (List Char)
  | [] => []
  | c :: cs =>
    if c = '\n' then [] :: lines cs
    else if c = '\r' ∧ cs.head? = some '\n' then lines cs
    else
      match lines cs with
      | [] => [[c]]
      | line :: rest =>
        -- the break before `line` would have stood here
        (c :: line) :: rest

@[simp] theorem lines_nil : lines [] = [] := rfl

/-- A break that nothing precedes ends an empty line. -/
@[simp] theorem lines_break (cs : List Char) : lines ('\n' :: cs) = [] :: lines cs := by
  simp [lines]

/-- Texts one after another, with a separator between neighbours. -/
def joined (separator : String) : List String → String
  | [] => ""
  | [text] => text
  | text :: rest => text ++ separator ++ joined separator rest

/-- The text less its trailing line feeds. -/
def dropTrailingBreaks (text : List Char) : List Char :=
  (text.reverse.dropWhile (· = '\n')).reverse

/-- The text less one leading line feed and all trailing ones. -/
def trimBreaks : List Char → List Char
  | [] => []
  | c :: cs => dropTrailingBreaks (if c = '\n' then cs else c :: cs)

end Text

end SchemaTypes
