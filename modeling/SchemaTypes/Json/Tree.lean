import SchemaTypes.Json.Token

/-!
# The tree of a JSON text

A text is taken apart into a tree before anything in it is read. The tree of a faulty text is
complete up to the place where the text breaks off, and holds what stands there. Whoever reads the
tree in order meets that place and decides what is missing, since a reader of values, a reader of
records and a checker want different things there.

The tree is built by a machine that takes one token at a time and keeps the brackets and braces that
are still open. So a text may nest to any depth.

## Main definitions

* `Json.Tree`: a node of the tree
* `Json.State.step`: the machine
* `Json.TextTree`: the tree of a whole text, and what follows it
* `Json.TextTree.ofText`: the tree of every text
-/

namespace SchemaTypes

namespace Json

/-- What stands at a place. -/
inductive Sight
  /-- the end of the text -/
  | nothing
  | mark (mark : Mark)
  | other
deriving DecidableEq

/-- What stands next, and the byte where. -/
structure Next where
  sight : Sight
  byte : Nat
deriving DecidableEq

/-- What a token is to someone who wants another. -/
def Token.next (token : Token) : Next :=
  match token.lexeme with
  | .mark mark => ⟨.mark mark, token.start⟩
  | _ => ⟨.other, token.start⟩

/-- The place of a fault about what stands next: behind its first byte, if it has one. -/
def Next.place (next : Next) : Nat :=
  if next.sight = .nothing then next.byte else next.byte + 1

/-- Tells the end of the text from anything else that stands next. -/
def Next.fault (next : Next) (ended : Unfinished) (wrong : Cause) : Fault :=
  ⟨if next.sight = .nothing then .ended ended else wrong, next.place⟩

/-- How a list ends. -/
inductive ListEnd
  /-- with its bracket, which stops at the byte -/
  | closed (stop : Nat)
  /-- without comma or bracket -/
  | unclosed (next : Next)
  /-- with a comma that no item follows -/
  | dangling (next : Next)

/-- The key of an entry, and what follows it. -/
structure Key where
  reading : Except Fault String
  checking : Except Fault Unit
  next : Next

/-- How an object ends. -/
inductive ObjectEnd
  /-- with its brace, which stops at the byte -/
  | closed (stop : Nat)
  /-- without comma or brace, or without a first key -/
  | unclosed (next : Next)
  /-- with a comma that no key follows -/
  | dangling (next : Next)
  /-- with a key that no colon follows -/
  | keyOnly (key : Key)

/-- A node of the tree of a text. -/
inductive Tree
  /-- no value starts here -/
  | absent (next : Next)
  | plain (reading : Except Fault Plain) (checking : Except Fault Unit) (start stop : Nat)
  | text (reading : Except Fault String) (checking : Except Fault Unit) (start stop : Nat)
  | list (start : Nat) (items : List Tree) (ending : ListEnd)
  | object (start : Nat) (entries : List (Key × Tree)) (ending : ObjectEnd)

/-- The byte where a node starts. -/
def Tree.start : Tree → Nat
  | absent next => next.byte
  | plain _ _ start _ => start
  | text _ _ start _ => start
  | list start _ _ => start
  | object start _ _ => start

/-- The tree of a whole text, and what follows it. -/
structure TextTree where
  root : Tree
  next : Next

/-! ### The machine -/

/-- A list or an object that is still open. What it holds so far stands last to first. -/
inductive Frame
  | list (start : Nat) (items : List Tree)
  /-- the value of the key is still to come -/
  | object (start : Nat) (entries : List (Key × Tree)) (key : Key)

/-- What the machine waits for. What is held so far stands last to first. -/
inductive State
  | value (frames : List Frame)
  /-- an item behind the bracket or a comma, or the bracket at the end -/
  | item (start : Nat) (items : List Tree) (frames : List Frame)
  /-- a key behind the brace or a comma, or the brace at the end -/
  | key (start : Nat) (entries : List (Key × Tree)) (frames : List Frame)
  /-- the colon behind a key -/
  | colon (start : Nat) (entries : List (Key × Tree)) (reading : Except Fault String)
      (frames : List Frame)
  /-- what follows a value -/
  | after (tree : Tree) (frames : List Frame)
  /-- nothing: the text broke off -/
  | broken (document : TextTree)

/-- The tree of a text that breaks off in `tree`, inside the frames. -/
def unwind (next : Next) (tree : Tree) : List Frame → Tree
  | [] => tree
  | .list start items :: frames =>
    unwind next (.list start (tree :: items).reverse (.unclosed next)) frames
  | .object start entries key :: frames =>
    unwind next (.object start ((key, tree) :: entries).reverse (.unclosed next)) frames

/-- The document that remains when `next` is not what the machine waits for. -/
def State.breakOff (next : Next) : State → TextTree
  | value frames => ⟨unwind next (.absent next) frames, next⟩
  | item start items frames =>
    let ending := if items.isEmpty then ListEnd.unclosed next else .dangling next
    ⟨unwind next (.list start items.reverse ending) frames, next⟩
  | key start entries frames =>
    let ending := if entries.isEmpty then ObjectEnd.unclosed next else .dangling next
    ⟨unwind next (.object start entries.reverse ending) frames, next⟩
  | colon start entries reading frames =>
    let key : Key := ⟨reading, .ok (), next⟩
    ⟨unwind next (.object start entries.reverse (.keyOnly key)) frames, next⟩
  | after tree [] => ⟨tree, next⟩
  | after tree (.list start items :: frames) =>
    ⟨unwind next (.list start (tree :: items).reverse (.unclosed next)) frames, next⟩
  | after tree (.object start entries k :: frames) =>
    ⟨unwind next (.object start ((k, tree) :: entries).reverse (.unclosed next)) frames, next⟩
  | broken document => document

/-- Breaks off at a token that is not what the machine waits for. -/
def State.reject (state : State) (token : Token) : State :=
  .broken (state.breakOff token.next)

/-- Takes a token where a value has to start. -/
def stepValue (frames : List Frame) (token : Token) : State :=
  let leaf (tree : Tree) (checking : Except Fault Unit) : State :=
    if checking.isOk then .after tree frames
    else .broken ⟨unwind token.next tree frames, token.next⟩
  match token.lexeme with
  | .mark .openBracket => .item token.start [] frames
  | .mark .openBrace => .key token.start [] frames
  | .text reading checking => leaf (.text reading checking token.start token.stop) checking
  | .plain reading checking => leaf (.plain reading checking token.start token.stop) checking
  | _ => (State.value frames).reject token

/-- Takes one token. -/
def State.step (state : State) (token : Token) : State :=
  match state with
  | value frames => stepValue frames token
  | item start items frames =>
    match token.lexeme with
    | .mark .closeBracket =>
      if items.isEmpty then .after (.list start [] (.closed token.stop)) frames
      else state.reject token
    | _ => stepValue (.list start items :: frames) token
  | key start entries frames =>
    match token.lexeme with
    | .mark .closeBrace =>
      if entries.isEmpty then .after (.object start [] (.closed token.stop)) frames
      else state.reject token
    | .text reading checking =>
      if checking.isOk then .colon start entries reading frames
      else
        let ending := ObjectEnd.keyOnly ⟨reading, checking, token.next⟩
        .broken ⟨unwind token.next (.object start entries.reverse ending) frames, token.next⟩
    | _ => state.reject token
  | colon start entries reading frames =>
    match token.lexeme with
    | .mark .colon => .value (.object start entries ⟨reading, .ok (), token.next⟩ :: frames)
    | _ => state.reject token
  | after tree (.list start items :: frames) =>
    match token.lexeme with
    | .mark .comma => .item start (tree :: items) frames
    | .mark .closeBracket =>
      .after (.list start (tree :: items).reverse (.closed token.stop)) frames
    | _ => state.reject token
  | after tree (.object start entries k :: frames) =>
    match token.lexeme with
    | .mark .comma => .key start ((k, tree) :: entries) frames
    | .mark .closeBrace =>
      .after (.object start ((k, tree) :: entries).reverse (.closed token.stop)) frames
    | _ => state.reject token
  | after _ [] => state.reject token
  | broken _ => state

/-- Where the machine is after some tokens. -/
def State.run (state : State) (tokens : List Token) : State :=
  tokens.foldl State.step state

/-- The tree of a text. -/
def TextTree.ofText (text : List Char) : TextTree :=
  ((State.value []).run (tokens text)).breakOff ⟨.nothing, Text.byteLength text⟩

end Json

end SchemaTypes
