/-!
# Arguments of a command

An argument is an option or a word. An option has a long name behind two dashes, and it may have a
letter; letters without values may stand together behind one dash. A value follows its option in the
same argument or is the next argument, which must then be a word. Two dashes alone end the options,
and one dash alone is a word.

Arguments are first turned into events, and a command then reads the events in order. The first
misuse ends the reading, and so does an option that asks for help.

## Main definitions

* `CommandLine.Switch`: an option of a command
* `CommandLine.Event`: what an argument says
* `CommandLine.events`: what a list of arguments says
* `CommandLine.Ending`: why the arguments are not read to their end
* `CommandLine.Grammar.read`: what the arguments of a command come to
-/

namespace SchemaTypes

namespace CommandLine

variable {φ σ : Type}

/-- An option of a command. -/
structure Switch (φ : Type) where
  field : φ
  letter : Option Char
  name : String
  takesValue : Bool
  repeatable : Bool

/-- What is wrong with the arguments. -/
inductive Misuse
  | unknownOption (name : String)
  | valueMissing (option : String)
  | valueUnwanted (option : String)
  | repeated (option : String)
  | badValue (value : String)
  | unwanted (argument : String)
  | unknownCommand (name : String)
  | commandMissing
  | shellMissing
deriving DecidableEq

/-- What an argument says. -/
inductive Event (φ : Type)
  /-- an option, with its value if it takes one -/
  | given (switch : Switch φ) (value : String)
  /-- a word, and the arguments behind it -/
  | word (content : String) (behind : List String)
  /-- an argument behind the end of the options -/
  | operand (content : String)
  | misuse (cause : Misuse)

/-! ### From arguments to events -/

/-- How an argument looks. -/
inductive Shape
  | ending
  | word
  /-- a long name, and the value behind an equals sign -/
  | long (name : List Char) (value : Option (List Char))
  /-- letters behind one dash -/
  | letters (letters : List Char)
deriving DecidableEq

/-- How an argument looks. -/
def shapeOf : List Char → Shape
  | [] => .word
  | first :: rest =>
    if first ≠ '-' ∨ rest.isEmpty then .word
    else if rest.head? ≠ some '-' then .letters rest
    else
      let body := rest.drop 1
      let name := body.takeWhile (· ≠ '=')
      if body.isEmpty then .ending
      else if name.length = body.length then .long name none
      else .long name (some (body.drop (name.length + 1)))

/-- What letters say, and the option among them that waits for its value. -/
def letterEvents (switches : List (Switch φ)) :
    List Char → List (Event φ) × Option (Switch φ)
  | [] => ([], none)
  | letter :: rest =>
    match switches.find? fun switch => switch.letter = some letter with
    | none => ([.misuse (.unknownOption (String.ofList ['-', letter]))], none)
    | some switch =>
      if switch.takesValue then
        match rest with
        | [] => ([], some switch)
        | c :: behind =>
          let value := if c = '=' then behind else rest
          ([.given switch (String.ofList value)], none)
      else
        let (others, waiting) := letterEvents switches rest
        (.given switch "" :: others, waiting)

/-- What a long name says, and the option that waits for its value. -/
def longEvents (switches : List (Switch φ)) (name : List Char) (value : Option (List Char)) :
    List (Event φ) × Option (Switch φ) :=
  let name := String.ofList name
  match switches.find? fun switch => switch.name = name with
  | none => ([.misuse (.unknownOption ("--" ++ name))], none)
  | some switch =>
    match switch.takesValue, value with
    | true, some value => ([.given switch (String.ofList value)], none)
    | true, none => ([], some switch)
    | false, some _ => ([.misuse (.valueUnwanted switch.name)], none)
    | false, none => ([.given switch ""], none)

/-- What a list of arguments says, in front of which an option may wait for its value. -/
def events (switches : List (Switch φ)) : Option (Switch φ) → List String → List (Event φ)
  | none, [] => []
  | some switch, [] => [.misuse (.valueMissing switch.name)]
  | some switch, argument :: rest =>
    if shapeOf argument.toList = .word then .given switch argument :: events switches none rest
    else [.misuse (.valueMissing switch.name)]
  | none, argument :: rest =>
    match shapeOf argument.toList with
    | .ending => rest.map .operand
    | .word => .word argument rest :: events switches none rest
    | .long name value =>
      let (said, waiting) := longEvents switches name value
      said ++ events switches waiting rest
    | .letters letters =>
      let (said, waiting) := letterEvents switches letters
      said ++ events switches waiting rest

/-! ### From events to a command -/

/-- Why the arguments are not read to their end. -/
inductive Ending
  | help
  | version
  | misuse (cause : Misuse)
deriving DecidableEq

/-- How a command reads its arguments. -/
structure Grammar (φ σ : Type) where
  switches : List (Switch φ)
  start : σ
  fill : σ → φ → String → Except Ending σ
  operand : σ → String → Except Ending σ

namespace Grammar

variable [DecidableEq φ]

/-- Reads one event. The fields that have been given are kept, since most options may be given
once. -/
def step (grammar : Grammar φ σ) (state : σ × List φ) :
    Event φ → Except Ending (σ × List φ)
  | .given switch value =>
    if !switch.repeatable && state.2.contains switch.field then
      .error (.misuse (.repeated switch.name))
    else do
      let next ← grammar.fill state.1 switch.field value
      .ok (next, switch.field :: state.2)
  | .word content _ => do
    let next ← grammar.operand state.1 content
    .ok (next, state.2)
  | .operand content => do
    let next ← grammar.operand state.1 content
    .ok (next, state.2)
  | .misuse cause => .error (.misuse cause)

/-- What the arguments of a command come to. -/
def read (grammar : Grammar φ σ) (arguments : List String) : Except Ending σ := do
  let (result, _) ← (events grammar.switches none arguments).foldlM grammar.step (grammar.start, [])
  .ok result

end Grammar

end CommandLine

end SchemaTypes
