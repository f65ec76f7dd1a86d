import SchemaTypes.Json.Fault
import SchemaTypes.Json.Numeral

/-!
# The tokens of a JSON text

A token is one of the structural marks, a quoted text, or a plain scalar: a number or one of the
words `null`, `true` and `false`. Between tokens stand blanks.

A token is looked at in two ways. It is *read* where its value is wanted, and only *checked* where
it belongs to something that is skipped. Reading is stricter: a number has to be in range, and
halves of surrogate pairs have to pair up. So a token carries the outcome of both, and the tokens of
a text go on as long as checking allows.

## Main definitions

* `Json.Lexeme`, `Json.Token`: a token without and with its place
* `Json.checkText`, `Json.readText`: the two ways to look at a quoted text
* `Json.tokens`: the tokens of a text
-/

namespace SchemaTypes

namespace Json

/-- The structural marks. -/
inductive Mark
  | openBracket
  | closeBracket
  | openBrace
  | closeBrace
  | comma
  | colon
deriving DecidableEq

/-- The mark a character is. -/
def Mark.ofChar? (c : Char) : Option Mark :=
  if c = '[' then some .openBracket
  else if c = ']' then some .closeBracket
  else if c = '{' then some .openBrace
  else if c = '}' then some .closeBrace
  else if c = ',' then some .comma
  else if c = ':' then some .colon
  else none

/-- A scalar without quotes. -/
inductive Plain
  | null
  | boolean (value : Bool)
  | number (value : Number)
deriving DecidableEq

/-- A token without its place. -/
inductive Lexeme
  | mark (mark : Mark)
  | text (reading : Except Fault String) (checking : Except Fault Unit)
  | plain (reading : Except Fault Plain) (checking : Except Fault Unit)
  /-- a character no token starts with -/
  | stray

/-- A token, the bytes where it starts and stops, and the number of its characters. -/
structure Token where
  lexeme : Lexeme
  start : Nat
  stop : Nat
  width : Nat

/-- Whether a character is blank between tokens. -/
def isGap (c : Char) : Bool :=
  c = ' ' || c = '\n' || c = '\t' || c = '\r'

/-! ### Quoted texts -/

/-- The value of a hexadecimal digit in either case. -/
def hexValue? (c : Char) : Option Nat :=
  if '0' ≤ c ∧ c ≤ '9' then some (c.toNat - 0x30)
  else if 'a' ≤ c ∧ c ≤ 'f' then some (c.toNat - 0x57)
  else if 'A' ≤ c ∧ c ≤ 'F' then some (c.toNat - 0x37)
  else none

/-- The value of the four hexadecimal digits at the start of a text that lies at byte `pos`. Four
bytes are taken whatever they are. -/
def readUnit (pos : Nat) (text : List Char) : Except Fault Nat :=
  match text.take 4 |>.mapM hexValue? with
  | some [a, b, c, d] => .ok (((a * 16 + b) * 16 + c) * 16 + d)
  | _ =>
    let size := Text.byteLength text
    if size < 4 then .error ⟨.ended .string, pos + size⟩ else .error ⟨.badEscape, pos + 4⟩

/-- The character an escape letter stands for. -/
def unescape? (letter : Char) : Option Char :=
  if letter = '"' ∨ letter = '\\' ∨ letter = '/' then some letter
  else if letter = 'b' then some '\x08'
  else if letter = 'f' then some '\x0c'
  else if letter = 'n' then some '\n'
  else if letter = 'r' then some '\r'
  else if letter = 't' then some '\t'
  else none

/-- How many characters the escape takes whose backslash lies just before byte `pos`. -/
def checkEscape (pos : Nat) : List Char → Except Fault Nat
  | [] => .error ⟨.ended .string, pos⟩
  | letter :: rest =>
    if letter = 'u' then (readUnit (pos + 1) rest).map fun _ => 5
    else if (unescape? letter).isSome then .ok 1
    else .error ⟨.badEscape, pos + 1⟩

/-- Checks a quoted text behind its opening quote. Gives the byte behind the closing quote and the
number of characters up to there. The first `pass` characters belong to an escape that has been
looked at. -/
def checkText (pass pos width : Nat) : List Char → Except Fault (Nat × Nat)
  | [] => .error ⟨.ended .string, pos⟩
  | c :: rest =>
    match pass with
    | pass + 1 => checkText pass (pos + c.utf8Size) (width + 1) rest
    | 0 =>
      if c = '"' then .ok (pos + 1, width + 1)
      else if c = '\\' then
        match checkEscape (pos + 1) rest with
        | .ok taken => checkText taken (pos + 1) (width + 1) rest
        | .error fault => .error fault
      else if c.toNat < 0x20 then .error ⟨.controlCharacter, pos⟩
      else checkText 0 (pos + c.utf8Size) (width + 1) rest

/-- Whether a sixteen-bit unit is the first half of a surrogate pair. -/
def isFirstHalf (unit : Nat) : Bool :=
  0xD800 ≤ unit && unit < 0xDC00

/-- Whether a sixteen-bit unit is the second half of a surrogate pair. -/
def isSecondHalf (unit : Nat) : Bool :=
  0xDC00 ≤ unit && unit < 0xE000

/-- The second half of a pair, which has to follow the first as an escape of its own. -/
def readSecondHalf (pos : Nat) : List Char → Except Fault Nat
  | [] => .error ⟨.ended .string, pos⟩
  | c :: rest =>
    if c = '\\' then
      match rest with
      | [] => .error ⟨.ended .string, pos + 1⟩
      | letter :: digits =>
        if letter = 'u' then do
          let unit ← readUnit (pos + 2) digits
          if isSecondHalf unit then .ok unit else .error ⟨.loneSurrogate, pos + 6⟩
        else .error ⟨.unfinishedPair, pos + 2⟩
    else .error ⟨.unfinishedPair, pos + 1⟩

/-- The character of the escape whose backslash lies just before byte `pos`, and how many
characters the escape takes. -/
def readEscape (pos : Nat) : List Char → Except Fault (Char × Nat)
  | [] => .error ⟨.ended .string, pos⟩
  | letter :: rest =>
    if letter = 'u' then do
      let unit ← readUnit (pos + 1) rest
      if isSecondHalf unit then .error ⟨.loneSurrogate, pos + 5⟩
      else if isFirstHalf unit then do
        let second ← readSecondHalf (pos + 5) (rest.drop 4)
        .ok (Char.ofNat (0x10000 + (unit - 0xD800) * 0x400 + (second - 0xDC00)), 11)
      else .ok (Char.ofNat unit, 5)
    else
      match unescape? letter with
      | some c => .ok (c, 1)
      | none => .error ⟨.badEscape, pos + 1⟩

/-- Reads a quoted text behind its opening quote. The first `pass` characters belong to an escape
that has been read. -/
def readText (pass pos : Nat) : List Char → Except Fault (List Char)
  | [] => .error ⟨.ended .string, pos⟩
  | c :: rest =>
    match pass with
    | pass + 1 => readText pass (pos + c.utf8Size) rest
    | 0 =>
      if c = '"' then .ok []
      else if c = '\\' then
        match readEscape (pos + 1) rest with
        | .ok (read, taken) => (readText taken (pos + 1) rest).map (read :: ·)
        | .error fault => .error fault
      else if c.toNat < 0x20 then .error ⟨.controlCharacter, pos + 1⟩
      else (readText 0 (pos + c.utf8Size) rest).map (c :: ·)

/-- The token of a quoted text at byte `pos`, without the opening quote. -/
def textToken (pos : Nat) (rest : List Char) : Token :=
  let reading := (readText 0 (pos + 1) rest).map String.ofList
  match checkText 0 (pos + 1) 1 rest with
  | .ok (stop, width) => ⟨.text reading (.ok ()), pos, stop, width⟩
  | .error fault => ⟨.text reading (.error fault), pos, pos, 0⟩

/-! ### Plain scalars -/

/-- Whether a text starts with the letters; otherwise where it departs from them. -/
def matchWord (pos : Nat) : List Char → List Char → Except Fault Unit
  | [], _ => .ok ()
  | _ :: _, [] => .error ⟨.ended .value, pos⟩
  | w :: word, c :: rest =>
    if c = w then matchWord (pos + 1) word rest else .error ⟨.wordWanted, pos + 1⟩

/-- The token of a word at byte `pos`, whose first letter decides which word it has to be. -/
def wordToken (pos : Nat) (value : Plain) (letters rest : List Char) : Token :=
  let stop := pos + 1 + letters.length
  let outcome := matchWord (pos + 1) letters rest
  ⟨.plain (outcome.map fun _ => value) outcome, pos, stop, 1 + letters.length⟩

/-- The token of a number at byte `pos`. Where its digits break off at the end of the text, a
reader misses the rest of a value and a checker finds a bad number. -/
def numberToken (pos : Nat) (text : List Char) : Token :=
  match Numeral.scan text with
  | .error broken =>
    let place := pos + broken.offset
    let missed := if broken.atEnd then Cause.ended .value else .badNumber
    ⟨.plain (.error ⟨missed, place⟩) (.error ⟨.badNumber, place⟩), pos, pos, 0⟩
  | .ok numeral =>
    let reading :=
      match numeral.number with
      | .ok number => .ok (.number number)
      | .error read => .error ⟨.numberTooLarge, pos + read⟩
    ⟨.plain reading (.ok ()), pos, pos + numeral.width, numeral.width⟩

/-! ### All tokens -/

/-- The token that starts with character `c` at byte `pos`. -/
def tokenAt (pos : Nat) (c : Char) (rest : List Char) : Token :=
  match Mark.ofChar? c with
  | some mark => ⟨.mark mark, pos, pos + 1, 1⟩
  | none =>
    if c = '"' then textToken pos rest
    else if c = 'n' then wordToken pos .null ['u', 'l', 'l'] rest
    else if c = 't' then wordToken pos (.boolean true) ['r', 'u', 'e'] rest
    else if c = 'f' then wordToken pos (.boolean false) ['a', 'l', 's', 'e'] rest
    else if c = '-' ∨ c.isDigit then numberToken pos (c :: rest)
    else ⟨.stray, pos, pos + c.utf8Size, 1⟩

/-- Whether the text can be taken apart behind a token. -/
def Lexeme.isSound : Lexeme → Bool
  | .mark _ => true
  | .text _ checking => checking.isOk
  | .plain _ checking => checking.isOk
  | .stray => false

/-- The tokens of a text at byte `pos`, up to the first that is not sound. The first `pass`
characters belong to the token before. -/
def tokensFrom (pass pos : Nat) : List Char → List Token
  | [] => []
  | c :: rest =>
    match pass with
    | pass + 1 => tokensFrom pass (pos + c.utf8Size) rest
    | 0 =>
      if isGap c then tokensFrom 0 (pos + 1) rest
      else
        let token := tokenAt pos c rest
        if token.lexeme.isSound then
          token :: tokensFrom (token.width - 1) (pos + c.utf8Size) rest
        else [token]

/-- The tokens of a text, up to the first that is not sound. -/
def tokens (text : List Char) : List Token :=
  tokensFrom 0 0 text

end Json

end SchemaTypes
