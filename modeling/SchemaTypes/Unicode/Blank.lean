import SchemaTypes.Unicode.Range

/-!
# Blank characters

The property White_Space: the characters that leave no mark on a page. It holds of the separators
and of the line and page controls, and of no zero-width character.

## Main definitions

* `Unicode.isBlank`: the property, for every character
* `Unicode.isBlankText`: every character of the text is blank
-/

namespace SchemaTypes

namespace Unicode

/-- The ranges of the property White_Space. -/
def blank : List Range :=
  [⟨0x09, 0x0D⟩, ⟨0x20, 0x20⟩, ⟨0x85, 0x85⟩, ⟨0xA0, 0xA0⟩, ⟨0x1680, 0x1680⟩, ⟨0x2000, 0x200A⟩,
   ⟨0x2028, 0x2029⟩, ⟨0x202F, 0x202F⟩, ⟨0x205F, 0x205F⟩, ⟨0x3000, 0x3000⟩]

/-- Whether the character leaves no mark. -/
def isBlank (c : Char) : Bool :=
  covers blank c

/-- Whether no character of the text leaves a mark. -/
def isBlankText (text : List Char) : Bool :=
  text.all isBlank

end Unicode

end SchemaTypes
