/-!
# Fragments of code

A piece of code is described before it is laid out: as lines, blank lines, documentation comments,
and blocks whose body is one level deeper than their header.

## Main definitions

* `Code.Fragment`: a fragment
-/

namespace SchemaTypes

namespace Code

/-- A fragment of code. -/
inductive Fragment
  | line (text : String)
  | blank
  /-- a documentation comment -/
  | comment (text : String)
  /-- a header, a deeper body and, where there is one, a closing line -/
  | block (header : String) (body : List Fragment) (close : Option String)

end Code

end SchemaTypes
