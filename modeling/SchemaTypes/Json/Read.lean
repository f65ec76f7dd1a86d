import SchemaTypes.Entries
import SchemaTypes.Json.Tree

/-!
# Reading values

A value is read from the tree of a text in order, and the first fault ends the reading. A key that
an object repeats keeps its first place and takes the last value. Lists and objects may nest
`maxDepth` deep.

What is skipped is checked for its grammar alone, to any depth.

## Main definitions

* `Json.Tree.value`: the value of a node
* `Json.Tree.check`: the grammar of a node
* `Json.Value.ofText`: the value of a text
-/

namespace SchemaTypes

namespace Json

/-- How deep lists and objects that are read may nest. -/
def maxDepth : Nat := 127

/-- Enters a list or an object that starts at a byte, where `room` more levels may be entered. -/
@[macro_inline]
def inside {α : Type} (room start : Nat) (body : Except Fault α) : Except Fault α :=
  if room = 0 then .error ⟨.tooDeep, start + 1⟩ else body

/-! ### Endings, to a reader of values -/

/-- Whether a list ends as it has to. -/
def ListEnd.read : ListEnd → Except Fault Unit
  | closed _ => .ok ()
  | unclosed next => .error (next.fault .list .listEndWanted)
  | dangling next => .error (next.fault .value .trailingComma)

/-- What is wrong with a key that no colon follows. -/
def Key.missingColon (key : Key) : Fault :=
  key.next.fault .object .colonWanted

/-- Whether an object ends as it has to. `first` tells that no entry stands before. -/
def ObjectEnd.read (first : Bool) : ObjectEnd → Except Fault Unit
  | closed _ => .ok ()
  | unclosed next => .error (next.fault .object (if first then .keyNotText else .objectEndWanted))
  | dangling next =>
    let wrong := if next.sight = .mark .closeBrace then Cause.trailingComma else .keyNotText
    .error (next.fault .value wrong)
  | keyOnly key => key.reading.bind fun _ => .error key.missingColon

/-! ### Reading -/

/-- The value of a scalar. -/
def Plain.value : Plain → Value
  | null => .null
  | boolean value => .boolean value
  | number value => .number value

namespace Tree

mutual

/-- The value of a node, where `room` more levels may be entered. -/
def value (room : Nat) : Tree → Except Fault Value
  | absent next => .error (next.fault .value .valueWanted)
  | plain reading _ _ _ => reading.map Plain.value
  | text reading _ _ _ => reading.map .text
  | list start items ending => inside room start do
    let read ← values (room - 1) items
    ending.read
    .ok (.array read)
  | object start entries ending => inside room start do
    let read ← valueEntries (room - 1) entries
    ending.read entries.isEmpty
    .ok (.object (Entries.collect read))

/-- The values of items in order. -/
def values (room : Nat) : List Tree → Except Fault (List Value)
  | [] => .ok []
  | item :: rest => do
    let first ← value room item
    let others ← values room rest
    .ok (first :: others)

/-- The keys and values of entries in order. -/
def valueEntries (room : Nat) : List (Key × Tree) → Except Fault (List (String × Value))
  | [] => .ok []
  | (key, tree) :: rest => do
    let name ← key.reading
    let first ← value room tree
    let others ← valueEntries room rest
    .ok ((name, first) :: others)

end

/-! ### Checking -/

/-- Whether a list ends as it has to, to a checker: behind a comma it wants a value. -/
def checkListEnd : ListEnd → Except Fault Unit
  | .closed _ => .ok ()
  | .unclosed next => .error (next.fault .list .listEndWanted)
  | .dangling next => .error (next.fault .value .valueWanted)

/-- Whether an object ends as it has to, to a checker: behind a comma it wants a key. -/
def checkObjectEnd (first : Bool) : ObjectEnd → Except Fault Unit
  | .closed _ => .ok ()
  | .unclosed next => .error (next.fault .object (if first then .keyNotText else .objectEndWanted))
  | .dangling next => .error (next.fault .object .keyNotText)
  | .keyOnly key => key.checking.bind fun _ => .error key.missingColon

mutual

/-- Whether a node is grammatical. -/
def check : Tree → Except Fault Unit
  | absent next => .error (next.fault .value .valueWanted)
  | plain _ checking _ _ => checking
  | text _ checking _ _ => checking
  | list _ items ending => do
    checkItems items
    checkListEnd ending
  | object _ entries ending => do
    checkEntries entries
    checkObjectEnd entries.isEmpty ending

/-- Whether items are grammatical. -/
def checkItems : List Tree → Except Fault Unit
  | [] => .ok ()
  | item :: rest => do
    check item
    checkItems rest

/-- Whether entries are grammatical. -/
def checkEntries : List (Key × Tree) → Except Fault Unit
  | [] => .ok ()
  | (key, tree) :: rest => do
    key.checking
    check tree
    checkEntries rest

end

end Tree

/-- The outcome of reading the root of a document, behind which nothing may follow. -/
def TextTree.close {α : Type} (document : TextTree) (read : Except Fault α) : Except Fault α := do
  let value ← read
  if document.next.sight = .nothing then .ok value
  else .error ⟨.trailingText, document.next.place⟩

/-- The value of a text. -/
def Value.ofText (text : List Char) : Except Fault Value :=
  let document := TextTree.ofText text
  document.close (document.root.value maxDepth)

end Json

end SchemaTypes
