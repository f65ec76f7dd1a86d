import SchemaTypes.Text.Literal
import SchemaTypes.Unicode.Visible

/-!
# Texts in diagnostics

A diagnostic shows a text between double quotes with everything a reader could not see written as
an escape: by a letter or a digit where there is one, otherwise by its code in braces.

## Main definitions

* `Text.shownChar`: a character as a diagnostic shows it
* `Text.shown`: a text as a diagnostic shows it
-/

namespace SchemaTypes

namespace Text

/-- A character as a diagnostic shows it. A single quote needs no escape. -/
def shownChar (c : Char) : List Char :=
  if c = '"' then ['\\', '"']
  else if c = '\\' then ['\\', '\\']
  else if c = '\n' then ['\\', 'n']
  else if c = '\r' then ['\\', 'r']
  else if c = '\t' then ['\\', 't']
  else if c.toNat = 0 then ['\\', '0']
  else if Unicode.isVisible c then [c]
  else ['\\', 'u', '{'] ++ Nat.toDigits 16 c.toNat ++ ['}']

/-- A text as a diagnostic shows it. -/
def shown (text : String) : String :=
  String.ofList ('"' :: (text.toList.flatMap shownChar ++ ['"']))

end Text

end SchemaTypes
