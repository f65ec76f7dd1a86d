import SchemaTypes.Json.Token

/-!
# TOML strings

A string is basic or literal, on one line or on several. A basic string has escapes. A string on
several lines drops a line break right behind its opening, and in a basic one a backslash at the end
of a line takes the break and the blanks behind it away.

A closing run of quotes may have up to two quotes more than it needs. They belong to the text.

## Main definitions

* `Toml.readBasic`, `Toml.readLiteral`: strings on one line
* `Toml.readBasicLines`, `Toml.readLiteralLines`: strings on several lines

Each reader starts behind the opening and gives the text and the number of characters up to the end
of the closing.
-/

namespace SchemaTypes

namespace Toml

/-- Whether a character may not stand in a text or a comment. -/
def isControl (c : Char) : Bool :=
  (c.toNat < 0x20 && c ≠ '\t') || c.toNat = 0x7F

/-- Whether a character is a blank inside a line. -/
def isBlank (c : Char) : Bool :=
  c = ' ' || c = '\t'

/-- The character with a code, if there is one. -/
def scalar? (code : Nat) : Option Char :=
  if code < 0xD800 ∨ (0xE000 ≤ code ∧ code < 0x110000) then some (Char.ofNat code) else none

/-- The character with the code in the first `count` hexadecimal digits of a text. -/
def hexScalar? (count : Nat) (text : List Char) : Option Char := do
  let digits ← (text.take count).mapM Json.hexValue?
  if digits.length = count then scalar? (digits.foldl (fun code d => code * 16 + d) 0) else none

/-- The character an escape behind its backslash stands for, and how many characters it takes. -/
def readEscape? : List Char → Option (Char × Nat)
  | [] => none
  | letter :: rest =>
    if letter = '"' ∨ letter = '\\' then some (letter, 1)
    else if letter = 'b' then some ('\x08', 1)
    else if letter = 't' then some ('\t', 1)
    else if letter = 'n' then some ('\n', 1)
    else if letter = 'f' then some ('\x0c', 1)
    else if letter = 'r' then some ('\r', 1)
    else if letter = 'e' then some ('\x1b', 1)
    else if letter = 'x' then (hexScalar? 2 rest).map fun c => (c, 3)
    else if letter = 'u' then (hexScalar? 4 rest).map fun c => (c, 5)
    else if letter = 'U' then (hexScalar? 8 rest).map fun c => (c, 9)
    else none

/-- What a reader gives: a text and the number of characters read. -/
abbrev Reading := Option (List Char × Nat)

/-- A reading with one more character in front, read from `width` characters. -/
def Reading.cons (c : Char) (width : Nat) (reading : Reading) : Reading :=
  reading.map fun (text, count) => (c :: text, count + width)

/-- A reading behind `width` more characters that add nothing. -/
def Reading.behind (width : Nat) (reading : Reading) : Reading :=
  reading.map fun (text, count) => (text, count + width)

/-! ### One line -/

/-- Reads a basic string. The first `pass` characters belong to an escape that has been read. -/
def readBasic (pass : Nat) : List Char → Reading
  | [] => none
  | c :: rest =>
    match pass with
    | pass + 1 => (readBasic pass rest).behind 1
    | 0 =>
      if c = '"' then some ([], 1)
      else if c = '\\' then
        match readEscape? rest with
        | some (read, taken) => (readBasic taken rest).cons read 1
        | none => none
      else if isControl c then none
      else (readBasic 0 rest).cons c 1

/-- Reads a literal string. -/
def readLiteral : List Char → Reading
  | [] => none
  | c :: rest =>
    if c = '\'' then some ([], 1)
    else if isControl c then none
    else (readLiteral rest).cons c 1

/-! ### Several lines -/

/-- The number of quotes at the start of a text, counted up to five. -/
def quoteRun (quote : Char) (text : List Char) : Nat :=
  ((text.take 5).takeWhile (· = quote)).length

/-- A run of quotes that closes a string, which takes three of them. -/
def closing (quote : Char) (run : Nat) : Reading :=
  some (List.replicate (run - 3) quote, run)

/-- Whether a line break stands at the start of a text. -/
def startsWithBreak : List Char → Bool
  | '\n' :: _ => true
  | '\r' :: '\n' :: _ => true
  | _ => false

/-- Whether a character may stand inside a string on several lines, in front of the rest. A carriage
return is part of a line break. -/
def isLinesChar (c : Char) (rest : List Char) : Bool :=
  if c = '\r' then rest.head? = some '\n' else c = '\n' || !isControl c

/-- The number of blanks and line breaks up to the next text. A carriage return must be part of a
line break. -/
def gapLength? : List Char → Option Nat
  | [] => some 0
  | c :: rest =>
    if c = '\r' ∧ rest.head? ≠ some '\n' then none
    else if isBlank c ∨ c = '\n' ∨ c = '\r' then (gapLength? rest).map (· + 1)
    else some 0

/-- The number of characters that a backslash at the end of a line takes away behind it: the blanks
and breaks up to the next text. -/
def continuation? (text : List Char) : Option Nat :=
  if startsWithBreak (text.dropWhile isBlank) then gapLength? text else none

/-- Reads a basic string on several lines. The first `pass` characters belong to an escape that has
been read. -/
def readBasicLines (pass : Nat) : List Char → Reading
  | [] => none
  | c :: rest =>
    match pass with
    | pass + 1 => (readBasicLines pass rest).behind 1
    | 0 =>
      let run := quoteRun '"' (c :: rest)
      if 3 ≤ run then closing '"' run
      else if c = '\\' then
        match continuation? rest, readEscape? rest with
        | some taken, _ => (readBasicLines taken rest).behind 1
        | none, some (read, taken) => (readBasicLines taken rest).cons read 1
        | none, none => none
      else if isLinesChar c rest then (readBasicLines 0 rest).cons c 1
      else none

/-- Reads a literal string on several lines. -/
def readLiteralLines : List Char → Reading
  | [] => none
  | c :: rest =>
    let run := quoteRun '\'' (c :: rest)
    if 3 ≤ run then closing '\'' run
    else if isLinesChar c rest then (readLiteralLines rest).cons c 1
    else none

/-- The number of characters of a line break right behind the opening of a string. -/
def firstBreak (text : List Char) : Nat :=
  if startsWithBreak text then (if text.head? = some '\r' then 2 else 1) else 0

end Toml

end SchemaTypes
