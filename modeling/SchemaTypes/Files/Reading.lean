/-!
# Reading files

What comes of reading the file at a path. Reading a file may be an action, and what a program reads
next depends on what it has read, so a program is written over any monad in which files are read.

## Main definitions

* `Files.Reading`: what comes of reading a file
* `Files.Reading.ofBytes`: the reading of a file with some bytes
* `Files.Reader`: how files are read
-/

namespace SchemaTypes

namespace Files

/-- What comes of reading the file at a path. -/
inductive Reading
  /-- nothing is at the path -/
  | missing
  /-- what is at the path is no text -/
  | unreadable
  | text (content : List Char)
deriving DecidableEq

/-- The reading of a file with the given bytes, which have to be UTF-8. -/
def Reading.ofBytes (bytes : ByteArray) : Reading :=
  match String.fromUTF8? bytes with
  | some content => .text content.toList
  | none => .unreadable

/-- How files are read. -/
abbrev Reader (m : Type → Type) := String → m Reading

end Files

end SchemaTypes
