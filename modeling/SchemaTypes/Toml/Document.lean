import SchemaTypes.Toml.Number
import SchemaTypes.Toml.Table
import SchemaTypes.Toml.Text

/-!
# TOML documents

A document is a sequence of lines: headers, keys with values, and blank or comment lines. Every
reader gives what it read and what is left, and fails on anything that is not well formed.

## Main definitions

* `Toml.Cursor`: what is left of a text, and the byte where it starts
* `Toml.value?`: a value
* `Toml.expressions?`: the headers and entries of a text
* `Toml.readDocument?`: the entries of the root table
-/

namespace SchemaTypes

namespace Toml

/-- What is left of a text, and the byte where it starts. -/
structure Cursor where
  byte : Nat
  rest : List Char

namespace Cursor

/-- Passes over characters. -/
def skip (cursor : Cursor) (count : Nat) : Cursor where
  byte := cursor.byte + SchemaTypes.Text.byteLength (cursor.rest.take count)
  rest := cursor.rest.drop count

/-- Passes over characters with a property. -/
def skipWhile (cursor : Cursor) (p : Char → Bool) : Cursor :=
  cursor.skip (cursor.rest.takeWhile p).length

/-- Passes over blanks inside a line. -/
def skipBlanks (cursor : Cursor) : Cursor :=
  cursor.skipWhile isBlank

/-- Passes over a character that must be there. -/
def expect? (cursor : Cursor) (c : Char) : Option Cursor :=
  if cursor.rest.head? = some c then some (cursor.skip 1) else none

/-- Whether the text goes on with some characters. -/
def startsWith (cursor : Cursor) (text : List Char) : Bool :=
  text.isPrefixOf cursor.rest

/-- Passes over a comment, if there is one. It runs up to the line break. -/
def skipComment? (cursor : Cursor) : Option Cursor :=
  if cursor.rest.head? = some '#' then
    let after := cursor.skipWhile fun c => !isControl c
    if after.rest.isEmpty ∨ startsWithBreak after.rest then some after else none
  else some cursor

/-- Passes over blanks, line breaks and comments. -/
def skipGaps? : Nat → Cursor → Option Cursor
  | 0, _ => none
  | fuel + 1, cursor => do
    let cursor := cursor.skipBlanks
    let after ← cursor.skipComment?
    if startsWithBreak after.rest then skipGaps? fuel (after.skip (firstBreak after.rest))
    else some after

/-- Passes over blanks and a comment to the end of the line, which may be that of the text. -/
def endLine? (cursor : Cursor) : Option Cursor := do
  let after ← cursor.skipBlanks.skipComment?
  if after.rest.isEmpty then some after
  else if startsWithBreak after.rest then some (after.skip (firstBreak after.rest))
  else none

end Cursor

/-! ### Strings and keys -/

/-- The text behind an opening of some characters, by its reader. -/
def quoted? (cursor : Cursor) (opening : Nat) (read : List Char → Reading) :
    Option (String × Cursor) := do
  let inner := cursor.skip opening
  let (text, width) ← read inner.rest
  some (String.ofList text, inner.skip width)

/-- A string on one line. -/
def lineString? (cursor : Cursor) : Option (String × Cursor) :=
  match cursor.rest.head? with
  | some '"' => quoted? cursor 1 (readBasic 0)
  | some '\'' => quoted? cursor 1 readLiteral
  | _ => none

/-- A string of any kind. -/
def string? (cursor : Cursor) : Option (String × Cursor) :=
  let opening := 3 + firstBreak (cursor.rest.drop 3)
  if cursor.startsWith ['"', '"', '"'] then quoted? cursor opening (readBasicLines 0)
  else if cursor.startsWith ['\'', '\'', '\''] then quoted? cursor opening readLiteralLines
  else lineString? cursor

/-- Whether a character may stand in a key without quotes. -/
def isBareKeyChar (c : Char) : Bool :=
  c.isAlphanum || c = '_' || c = '-'

/-- One key, bare or a string on one line. -/
def simpleKey? (cursor : Cursor) : Option (Key × Cursor) := do
  let bare := cursor.rest.takeWhile isBareKeyChar
  let (text, after) ←
    if bare.isEmpty then lineString? cursor
    else some (String.ofList bare, cursor.skip bare.length)
  some (⟨text, ⟨cursor.byte, after.byte⟩⟩, after)

/-- How many keys a dotted key may have, and how many values may lie in one another. -/
def maxDepth : Nat := 80

/-- At most `room` keys with dots between them. The last one is apart. Blanks may stand around the
dots. -/
def keysWithin? : Nat → Cursor → Option (List Key × Key × Cursor)
  | 0, _ => none
  | room + 1, cursor => do
    let (key, after) ← simpleKey? cursor
    match after.skipBlanks.expect? '.' with
    | none => some ([], key, after.skipBlanks)
    | some next => do
      let (path, last, rest) ← keysWithin? room next.skipBlanks
      some (key :: path, last, rest)

/-- A key, which may be dotted. -/
def dottedKey? (cursor : Cursor) : Option (List Key × Key × Cursor) :=
  keysWithin? maxDepth cursor

/-! ### Values -/

/-- The characters that end a word which does not start with a quote. -/
def wordEnds : List Char :=
  ['=', ',', '[', ']', '{', '}', ' ', '\t', '#', '\r', '\n']

/-- Whether a character can stand in such a word. -/
def isWordChar (c : Char) : Bool :=
  !wordEnds.contains c

/-- A word without quotes. A date takes the time behind a blank along. -/
def word? (cursor : Cursor) : Option (Value × Cursor) :=
  let word := cursor.rest.takeWhile isWordChar
  let after := cursor.rest.drop word.length
  let hasTime := afterDate? word = some [] ∧ after.head? = some ' ' ∧
    ((after.drop 1).head?.any Char.isDigit)
  let more := if hasTime then ' ' :: (after.drop 1).takeWhile isWordChar else []
  let whole := word ++ more
  (readWord? whole).map fun value => (value, cursor.skip whole.length)

/-- Passes over blanks, line breaks and comments. -/
def Cursor.skipAllGaps? (cursor : Cursor) : Option Cursor :=
  cursor.skipGaps? (cursor.rest.length + 1)

mutual

/-- A value, in which `room` more levels may be entered, and what is left. -/
def value? : Nat → Nat → Cursor → Option (Value × Cursor)
  | 0, _, _ => none
  | fuel + 1, room, cursor =>
    match cursor.rest.head? with
    | some '"' => (string? cursor).map fun (text, after) => (.text text, after)
    | some '\'' => (string? cursor).map fun (text, after) => (.text text, after)
    | some '[' =>
      if room = 0 then none
      else do
        let (items, after) ← items? fuel (room - 1) (cursor.skip 1)
        some (.array false items, after)
    | some '{' =>
      if room = 0 then none
      else do
        let (entries, after) ← inlineEntries? fuel (room - 1) [] (cursor.skip 1)
        some (.table .inline entries, after)
    | _ => word? cursor

/-- Items up to the closing bracket, which a comma may precede. -/
def items? : Nat → Nat → Cursor → Option (List (Span × Value) × Cursor)
  | 0, _, _ => none
  | fuel + 1, room, cursor => do
    let start ← cursor.skipAllGaps?
    match start.expect? ']' with
    | some after => some ([], after)
    | none => do
      let (value, stop) ← value? fuel room start
      let item : Span × Value := (⟨start.byte, stop.byte⟩, value)
      let next ← stop.skipAllGaps?
      match next.expect? ',' with
      | some more => do
        let (items, after) ← items? fuel room more
        some (item :: items, after)
      | none => do
        let after ← next.expect? ']'
        some ([item], after)

/-- Entries up to the closing brace, which a comma may precede, behind those read so far. Line
breaks may stand around a key, but not inside it. -/
def inlineEntries? : Nat → Nat → List Entry → Cursor → Option (List Entry × Cursor)
  | 0, _, _, _ => none
  | fuel + 1, room, sofar, cursor => do
    let start ← cursor.skipAllGaps?
    match start.expect? '}' with
    | some after => some (sofar, after)
    | none => do
      let (path, key, behind) ← dottedKey? start
      let first ← (← (← behind.skipAllGaps?).expect? '=').skipAllGaps?
      let (value, stop) ← value? fuel room first
      let entries ← insertValue path key ⟨first.byte, stop.byte⟩ value sofar
      let next ← stop.skipAllGaps?
      match next.expect? ',' with
      | some more => inlineEntries? fuel room entries more
      | none => do
        let after ← next.expect? '}'
        some (entries, after)

end

/-! ### Lines -/

/-- A line of a document that is not blank. -/
inductive Expression
  /-- a header with the path and the last key of its table -/
  | header (ofList : Bool) (path : List Key) (key : Key) (span : Span)
  | entry (path : List Key) (key : Key) (span : Span) (value : Value)

/-- A header in single or double brackets. -/
def header? (cursor : Cursor) : Option (Expression × Cursor) := do
  let ofList := cursor.startsWith ['[', '[']
  let opening := if ofList then 2 else 1
  let (path, key, behind) ← dottedKey? (cursor.skip opening).skipBlanks
  let inner ← behind.expect? ']'
  let after ← if ofList then inner.expect? ']' else some inner
  some (.header ofList path key ⟨cursor.byte, after.byte⟩, after)

/-- A key with a value. -/
def entry? (cursor : Cursor) : Option (Expression × Cursor) := do
  let (path, key, behind) ← dottedKey? cursor
  let first := (← behind.expect? '=').skipBlanks
  -- each level of nesting takes two steps and at least one character
  let (value, after) ← value? (2 * first.rest.length + 2) maxDepth first
  some (.entry path key ⟨first.byte, after.byte⟩ value, after)

/-- The expressions of a text, one a line. -/
def expressions? : Nat → Cursor → Option (List Expression)
  | 0, _ => none
  | fuel + 1, cursor => do
    let start ← cursor.skipAllGaps?
    if start.rest.isEmpty then some []
    else
      let (expression, after) ←
        if start.rest.head? = some '[' then header? start else entry? start
      let next ← after.endLine?
      let others ← expressions? fuel next
      some (expression :: others)

/-- The root table and the path of the open table, with one more expression. -/
def addExpression (state : List Entry × List Key) :
    Expression → Option (List Entry × List Key)
  | .header ofList path key span => do
    let change := if ofList then openListTable key span else openTable key span
    let root ← descend false change path state.1
    some (root, path ++ [key])
  | .entry path key span value => do
    let root ← descend false (insertValue path key span value) state.2 state.1
    some (root, state.2)

/-- The entries of the root table of a text, which may start with a byte order mark. -/
def readDocument? (text : List Char) : Option (List Entry) := do
  let start : Cursor :=
    if text.head? = some '\uFEFF' then (Cursor.mk 0 text).skip 1 else ⟨0, text⟩
  let expressions ← expressions? (text.length + 1) start
  let (root, _) ← expressions.foldlM addExpression ([], [])
  some root

end Toml

end SchemaTypes
