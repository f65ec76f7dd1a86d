/-!
# Paths

A path is a text. Slashes part it into components: the empty one and a dot stand for nothing, two
dots for the directory above, and anything else is a name. A path that starts with a slash starts at
the root, any other one at the working directory.

The parent of a path and the joining of two are operations on texts, which look nothing up. The
place that a path leads to is what is left when every component has been followed, and two paths
with one place lead to the same file as long as the directories on the way are there.

## Main definitions

* `Files.components`: the components of a path
* `Files.parent?`, `Files.join`: the path of a directory, and a path seen from a directory
* `Files.Place`: where a path leads
* `Files.Place.follow`, `Files.Place.ofPath`: by one component, and by all
-/

namespace SchemaTypes

namespace Files

/-- Whether a path starts at the root. -/
def isAbsolute (path : List Char) : Bool :=
  path.head? = some '/'

/-- The components of a path. There is at least one, and the slash at the start of an absolute path
follows an empty one. -/
def components : List Char → List (List Char)
  | [] => [[]]
  | c :: rest =>
    if c = '/' then [] :: components rest
    else
      match components rest with
      | [] => [[c]]
      | first :: others => (c :: first) :: others

/-- The path with the given components. -/
def ofComponents : List (List Char) → List Char
  | [] => []
  | [one] => one
  | one :: others => one ++ '/' :: ofComponents others

/-- Whether a component stands for nothing. -/
def isVoid (component : List Char) : Bool :=
  component.isEmpty || component = ['.']

/-- The component for the directory above. -/
def above : List Char := ['.', '.']

/-- Components less those at the end that stand for nothing. -/
def trimVoid (parts : List (List Char)) : List (List Char) :=
  (parts.reverse.dropWhile isVoid).reverse

/-- The path without its last component and the slashes before it. The root and the empty path have
none. The parent of a path of one component is the empty path. -/
def parent? (path : List Char) : Option (List Char) :=
  match components path with
  | [] => none
  | first :: others =>
    match (trimVoid others).reverse with
    | [] => if first.isEmpty then none else some []
    | _ :: before =>
      let kept := trimVoid before.reverse
      if first.isEmpty ∧ kept.isEmpty then some ['/'] else some (ofComponents (first :: kept))

/-- A relative path seen from a directory. -/
def join (directory path : List Char) : List Char :=
  if directory.isEmpty ∨ directory.getLast? = some '/' then directory ++ path
  else directory ++ '/' :: path

/-! ### Places -/

/-- Where a path starts. -/
inductive Base
  | root
  /-- the directory so many levels above the working directory -/
  | working (levels : Nat)
deriving DecidableEq

/-- The directory above. The root is above itself. -/
def Base.parent : Base → Base
  | root => root
  | working levels => working (levels + 1)

/-- Where a path leads: from a base down through names, the last of which comes first. -/
structure Place where
  base : Base
  names : List (List Char)
deriving DecidableEq

namespace Place

/-- The working directory. -/
def here : Place where
  base := .working 0
  names := []

/-- The directory above. -/
def parent (place : Place) : Place :=
  match place.names with
  | [] => { place with base := place.base.parent }
  | _ :: rest => { place with names := rest }

/-- Where one component leads. -/
def follow (place : Place) (component : List Char) : Place :=
  if isVoid component then place
  else if component = above then place.parent
  else { place with names := component :: place.names }

/-- Where a path starts that is seen from a place. -/
def start (place : Place) (path : List Char) : Place :=
  if isAbsolute path then ⟨.root, []⟩ else place

/-- Where a path leads that is seen from a place. -/
def followPath (place : Place) (path : List Char) : Place :=
  (components path).foldl follow (place.start path)

/-- Where a path leads that is seen from the working directory. -/
def ofPath (path : List Char) : Place :=
  here.followPath path

end Place

end Files

end SchemaTypes
