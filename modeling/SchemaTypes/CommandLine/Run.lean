import SchemaTypes.Check.Report
import SchemaTypes.CommandLine.Request
import SchemaTypes.Files.Content

/-!
# Running a request

A run reads the settings, if there are any, and the schema document, and gives what has to be
written and the code with which to end. The flags of a command come before the settings, and the
settings before what holds where nothing is said. A run that fails writes no output.

Declarations, reports and the version are worded here. Help on the calls, the scripts of shells and
what is told of a problem are not: an outcome says which of them is due, and what it is about.

## Main definitions

* `CommandLine.Inputs`: the settings and the document of a run
* `CommandLine.GenerateFlags.renderOptions`: how declarations are written
* `CommandLine.generate`, `CommandLine.check`: the two commands on a document
* `CommandLine.Output`, `CommandLine.Problem`: what a run writes, and why it writes nothing
* `CommandLine.Outcome`: what a run comes to
* `CommandLine.run`: the run of a list of arguments
-/

namespace SchemaTypes

open Files TypeScript

/-- How declarations are written by the settings. -/
def Settings.renderOptions (settings : Settings) : RenderOptions where
  indent := .ofWidth settings.indent
  exported := settings.exported
  header := settings.header

namespace CommandLine

/-- How declarations are written by the flags and the settings. -/
def GenerateFlags.renderOptions (flags : GenerateFlags) (settings : Settings) : RenderOptions :=
  let options := settings.renderOptions
  { indent := (flags.indent.map Code.Indent.ofWidth).getD options.indent
    exported := flags.exported && options.exported
    header := flags.header.or options.header }

/-! ### The commands -/

/-- The settings and the document of a run. -/
structure Inputs where
  settings : Settings
  /-- the path the document was read from -/
  path : String
  document : Schema.Document

/-- Reads the settings and the document. A path of the document that is given comes before the one
of the settings. -/
def Inputs.load {m : Type → Type} [Monad m] (read : Reader m) (config : String)
    (input : Option String) : m (Except Failure Inputs) := do
  let reading ← read config
  match reading.settingsOrStandard config with
  | .error failure => pure (.error failure)
  | .ok file =>
    let path := input.getD file.inputPath
    let content ← read path
    pure ((content.document path).map fun document => ⟨file.settings, path, document⟩)

/-- The declarations of a document. -/
def generate (flags : GenerateFlags) (inputs : Inputs) : Except Failure String :=
  (Emission.generate inputs.document flags.definitions
    (flags.renderOptions inputs.settings)).mapError .unknownDefinition

/-- The report on a document. -/
def check (inputs : Inputs) : Check.Report :=
  .ofDocument inputs.document inputs.path

/-! ### The outcome -/

/-- What a run writes on its output. Help on the calls and the scripts of shells are not worded
here. -/
inductive Output
  | text (content : String)
  | help
  | completions (shell : Shell)
deriving DecidableEq

/-- Why a run gives no output. -/
inductive Problem
  | misuse (cause : Misuse)
  | failure (failure : Failure)
deriving DecidableEq

/-- What a run comes to. -/
structure Outcome where
  /-- the code to end with -/
  code : Nat
  /-- all that is written on the output -/
  written : Output
  /-- the warnings, one a line, which are written beside the output -/
  warnings : String
  /-- what is told beside the output -/
  problem : Option Problem
deriving DecidableEq

/-- The name of the program and its version. -/
def versionText : String := "swagdef 0.1.0\n"

namespace Outcome

/-- The outcome of a run with some output. -/
def success (written : Output) (warnings : String) : Outcome where
  code := 0
  written := written
  warnings := warnings
  problem := none

/-- The outcome of a run that ends with a code and writes no output. -/
def refusal (code : Nat) (problem : Problem) : Outcome where
  code := code
  written := .text ""
  warnings := ""
  problem := some problem

/-- The outcome of a run that fails. -/
def ofFailure (failure : Failure) : Outcome :=
  refusal 1 (.failure failure)

/-- The outcome of arguments that are not read to their end. -/
def ofEnding : Ending → Outcome
  | .help => success .help ""
  | .version => success (.text versionText) ""
  | .misuse cause => refusal 2 (.misuse cause)

/-- The output as far as it is worded here. -/
def output (outcome : Outcome) : String :=
  match outcome.written with
  | .text content => content
  | .help | .completions _ => ""

end Outcome

/-! ### The run -/

/-- Runs a request. -/
def Request.run {m : Type → Type} [Monad m] (read : Reader m) : Request → m Outcome
  | .generate flags => do
    let inputs ← Inputs.load read flags.config flags.input
    match inputs.bind (CommandLine.generate flags) with
    | .ok source => pure (.success (.text source) "")
    | .error failure => pure (.ofFailure failure)
  | .check flags => do
    match ← Inputs.load read flags.config flags.input with
    | .ok inputs =>
      let report := CommandLine.check inputs
      pure (.success (.text report.output) report.warningOutput)
    | .error failure => pure (.ofFailure failure)
  | .completions shell => pure (.success (.completions shell) "")

/-- The run of a list of arguments. -/
def run {m : Type → Type} [Monad m] (read : Reader m) (arguments : List String) : m Outcome :=
  match Request.ofArguments arguments with
  | .ok request => request.run read
  | .error ending => pure (.ofEnding ending)

end CommandLine

end SchemaTypes
