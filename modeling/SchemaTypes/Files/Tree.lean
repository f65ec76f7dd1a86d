import SchemaTypes.Files.Path
import SchemaTypes.Files.Reading

/-!
# Trees of files

A tree holds the files below a working directory. A path is followed component by component, and
each component but the last has to lead to a directory, also one that stands for nothing or that a
later one takes back. Beside the tree only the directories above it and the root are known, and they
hold nothing else.

## Main definitions

* `Files.Tree`: files and directories below a working directory
* `Files.Tree.find`: the place a path leads to in a tree
* `Files.Tree.read`: what comes of reading the file at a path
-/

namespace SchemaTypes

namespace Files

/-- The files and directories below a working directory, by their names from there. -/
structure Tree where
  files : List (List (List Char) × Reading)
  directories : List (List (List Char))

namespace Tree

/-- A tree with nothing in it. -/
def empty : Tree where
  files := []
  directories := []

/-- A tree with one more file, or one more directory if the path ends in a slash. -/
def add (tree : Tree) (path : String) (content : Reading) : Tree :=
  let names := (components path.toList).filter fun component => !isVoid component
  if path.toList.getLast? = some '/' then
    { tree with directories := tree.directories ++ [names] }
  else { tree with files := tree.files ++ [(names, content)] }

/-- Whether names lead to a directory: the working directory, one that is listed, or one that
something lies in. -/
def hasDirectory (tree : Tree) (names : List (List Char)) : Bool :=
  names.isEmpty || tree.directories.any names.isPrefixOf ||
    tree.files.any fun file => names.isPrefixOf file.1 && names ≠ file.1

/-- Whether a place is a directory. -/
def isDirectory (tree : Tree) (place : Place) : Bool :=
  if place.base = .working 0 then tree.hasDirectory place.names.reverse else place.names.isEmpty

/-- What comes of reading at a place. A directory is no text. -/
def readPlace (tree : Tree) (place : Place) : Reading :=
  if tree.isDirectory place then .unreadable
  else if place.base = .working 0 then
    match tree.files.find? fun file => file.1 = place.names.reverse with
    | some (_, content) => content
    | none => .missing
  else .missing

/-- Follows one component from a directory. -/
def step (tree : Tree) (place : Place) (component : List Char) : Option Place :=
  if tree.isDirectory place then some (place.follow component) else none

/-- The place a path leads to. The empty path leads nowhere. -/
def find (tree : Tree) (path : List Char) : Option Place :=
  if path.isEmpty then none
  else (components path).foldlM tree.step (Place.here.start path)

/-- What comes of reading the file at a path. -/
def read (tree : Tree) (path : String) : Reading :=
  match tree.find path.toList with
  | some place => tree.readPlace place
  | none => .missing

end Tree

end Files

end SchemaTypes
