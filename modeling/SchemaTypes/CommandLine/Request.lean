import SchemaTypes.CommandLine.Switch

/-!
# Requests

What a list of arguments asks for: the declarations of a document, a check of a document, or a
script with which a shell completes the names of the commands. The first word is the name of a
command, and the arguments behind it are those of the command. Every command can be asked for help,
and to tell more of what it does.

## Main definitions

* `CommandLine.GenerateFlags`, `CommandLine.CheckFlags`, `CommandLine.Shell`: what the commands are
  told
* `CommandLine.Request`: what is asked for
* `CommandLine.Request.ofArguments`: what a list of arguments asks for
-/

namespace SchemaTypes

namespace CommandLine

/-- What the command is told that writes declarations. -/
structure GenerateFlags where
  config : String
  input : Option String
  definitions : List String
  exported : Bool
  indent : Option Nat
  header : Option String
deriving DecidableEq

/-- What the command is told that checks a document. -/
structure CheckFlags where
  config : String
  input : Option String
deriving DecidableEq

/-- A shell that completes names. -/
inductive Shell
  | bash
  | elvish
  | fish
  | powershell
  | zsh
deriving DecidableEq

/-- What is asked for. -/
inductive Request
  | generate (flags : GenerateFlags)
  | check (flags : CheckFlags)
  | completions (shell : Shell)
deriving DecidableEq

/-- Where settings lie unless another path is given. -/
def standardConfig : String := "swagdef.toml"

/-- The commands, and the one that gives help on them. -/
def commandNames : List String := ["generate", "check", "completions", "help"]

/-! ### Values -/

/-- The ending for a value that an option does not take. -/
def badValue (value : String) : Ending :=
  .misuse (.badValue value)

/-- A path. It is not empty. -/
def readPath (value : String) : Except Ending String :=
  if value = "" then .error (badValue value) else .ok value

/-- The number in decimal digits, of which there is at least one. -/
def decimal? (digits : List Char) : Option Nat :=
  if digits.isEmpty ∨ !digits.all Char.isDigit then none
  else some (digits.foldl (fun value c => value * 10 + (c.toNat - '0'.toNat)) 0)

/-- A width: a whole number below 256 in decimal digits. A sign and zeros may stand in front. -/
def width? (value : List Char) : Option Nat :=
  match value with
  | '-' :: digits => (decimal? digits).filter (· = 0)
  | '+' :: digits => (decimal? digits).filter (· < 256)
  | digits => (decimal? digits).filter (· < 256)

/-- A width, or the ending for a value that is none. -/
def readWidth (value : String) : Except Ending Nat :=
  match width? value.toList with
  | some width => .ok width
  | none => .error (badValue value)

/-- The shell with a name. -/
def Shell.ofName? (name : String) : Option Shell :=
  if name = "bash" then some bash
  else if name = "elvish" then some elvish
  else if name = "fish" then some fish
  else if name = "powershell" then some powershell
  else if name = "zsh" then some zsh
  else none

/-! ### Options -/

/-- The option to tell more, which may be given more than once. -/
def verboseSwitch {φ : Type} (field : φ) : Switch φ :=
  ⟨field, some 'v', "verbose", false, true⟩

/-- The option to ask for help. -/
def helpSwitch {φ : Type} (field : φ) : Switch φ :=
  ⟨field, some 'h', "help", false, false⟩

/-- The ending for an argument too many. -/
def unwanted {σ : Type} (argument : String) : Except Ending σ :=
  .error (.misuse (.unwanted argument))

/-- The options of the command that writes declarations. -/
inductive GenerateField
  | config
  | input
  | definition
  | exported
  | indent
  | header
  | verbose
  | help
deriving DecidableEq

/-- The arguments of the command that writes declarations. -/
def generateGrammar : Grammar GenerateField GenerateFlags where
  switches :=
    [⟨.config, some 'c', "config", true, false⟩,
      ⟨.input, some 'i', "input", true, false⟩,
      ⟨.definition, some 'd', "definition", true, true⟩,
      ⟨.exported, none, "no-export", false, false⟩,
      ⟨.indent, none, "indent", true, false⟩,
      ⟨.header, none, "header", true, false⟩,
      verboseSwitch .verbose, helpSwitch .help]
  start :=
    { config := standardConfig
      input := none
      definitions := []
      exported := true
      indent := none
      header := none }
  fill flags field value :=
    match field with
    | .config => do
      let path ← readPath value
      .ok { flags with config := path }
    | .input => do
      let path ← readPath value
      .ok { flags with input := some path }
    | .definition => .ok { flags with definitions := flags.definitions ++ [value] }
    | .exported => .ok { flags with exported := false }
    | .indent => do
      let width ← readWidth value
      .ok { flags with indent := some width }
    | .header => .ok { flags with header := some value }
    | .verbose => .ok flags
    | .help => .error .help
  operand _ := unwanted

/-- The options of the command that checks a document. -/
inductive CheckField
  | config
  | input
  | verbose
  | help
deriving DecidableEq

/-- The arguments of the command that checks a document. -/
def checkGrammar : Grammar CheckField CheckFlags where
  switches :=
    [⟨.config, some 'c', "config", true, false⟩,
      ⟨.input, some 'i', "input", true, false⟩,
      verboseSwitch .verbose, helpSwitch .help]
  start :=
    { config := standardConfig
      input := none }
  fill flags field value :=
    match field with
    | .config => do
      let path ← readPath value
      .ok { flags with config := path }
    | .input => do
      let path ← readPath value
      .ok { flags with input := some path }
    | .verbose => .ok flags
    | .help => .error .help
  operand _ := unwanted

/-- The options of a command that has none of its own. -/
inductive PlainField
  | verbose
  | help
deriving DecidableEq

/-- The arguments of the command that completes names: a shell. -/
def completionsGrammar : Grammar PlainField (Option Shell) where
  switches := [verboseSwitch .verbose, helpSwitch .help]
  start := none
  fill shell field _ :=
    match field with
    | .verbose => .ok shell
    | .help => .error .help
  operand
    | some _, argument => unwanted argument
    | none, argument =>
      match Shell.ofName? argument with
      | some shell => .ok (some shell)
      | none => .error (badValue argument)

/-! ### Commands -/

/-- Help on a command: that of no name or the name of one command. -/
def helpOn : List String → Ending
  | [] => .help
  | [name] => if commandNames.contains name then .help else .misuse (.unknownCommand name)
  | _ :: argument :: _ => .misuse (.unwanted argument)

/-- What a command with its arguments asks for. -/
def requestOf (command : String) (arguments : List String) : Except Ending Request :=
  if command = "generate" then (generateGrammar.read arguments).map .generate
  else if command = "check" then (checkGrammar.read arguments).map .check
  else if command = "completions" then do
    match ← completionsGrammar.read arguments with
    | some shell => .ok (.completions shell)
    | none => .error (.misuse .shellMissing)
  else if command = "help" then .error (helpOn arguments)
  else .error (.misuse (.unknownCommand command))

/-- The options in front of a command. -/
inductive TopField
  | verbose
  | help
  | version
deriving DecidableEq

/-- The options in front of a command. -/
def topSwitches : List (Switch TopField) :=
  [verboseSwitch .verbose, helpSwitch .help, ⟨.version, some 'V', "version", false, false⟩]

/-- What events ask for, the first word among which names the command. -/
def requestOfEvents : List (Event TopField) → Except Ending Request
  | [] => .error (.misuse .commandMissing)
  | .given switch _ :: rest =>
    match switch.field with
    | .verbose => requestOfEvents rest
    | .help => .error .help
    | .version => .error .version
  | .word command behind :: _ => requestOf command behind
  | .operand argument :: _ => unwanted argument
  | .misuse cause :: _ => .error (.misuse cause)

/-- What a list of arguments asks for. -/
def Request.ofArguments (arguments : List String) : Except Ending Request :=
  requestOfEvents (events topSwitches none arguments)

end CommandLine

end SchemaTypes
