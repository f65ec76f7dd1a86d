/-!
# Indentation

One level of indentation is a tab or a number of spaces, eight at the most.

## Main definitions

* `Code.Indent`: a style of indentation
* `Code.Indent.ofWidth`: the style for a configured width
* `Code.Indent.unit`: the text of one level
-/

namespace SchemaTypes

namespace Code

/-- A style of indentation. -/
inductive Indent
  | tab
  | spaces (width : Nat)
deriving DecidableEq

namespace Indent

/-- The usual style of TypeScript: two spaces. -/
def standard : Indent :=
  spaces 2

/-- The style for a configured width, where zero stands for tabs. -/
def ofWidth (width : Nat) : Indent :=
  if width = 0 then tab else spaces width

/-- The text of one level. -/
def unit : Indent → String
  | tab => "\t"
  | spaces width => String.ofList (List.replicate (min width 8) ' ')

end Indent

end Code

end SchemaTypes
