import SchemaTypes.Json.Fault
import SchemaTypes.Schema.Document
import SchemaTypes.Schema.Parts
import SchemaTypes.Settings

/-!
# Failures

What can keep a run from giving its result: a file that cannot be read, a text that does not say
what it should, or a name that is not defined. A failure in a text may carry a label that points at
the place.

## Main definitions

* `Failure`: what went wrong
* `Failure.message`, `Failure.code?`, `Failure.help?`, `Failure.cause?`: how it is told
* `Failure.Label`: a remark on a stretch of a text
* `Failure.label?`: the remark on the text that is at fault
* `Schema.Document.ofText`: the document of a text, or the failure to read it
-/

namespace SchemaTypes

/-- What went wrong. -/
inductive Failure
  /-- the file at a path cannot be read -/
  | unreadable (path : String)
  /-- a text is no schema document -/
  | badDocument (file : String) (text : List Char) (fault : Json.Fault)
  /-- a text is no document of settings -/
  | badSettings (file : String) (fault : Settings.Fault)
  /-- a schema document has no place that holds definitions -/
  | noDefinitions (file : String)
  /-- a name is not defined -/
  | unknownDefinition (name : String)
deriving DecidableEq

namespace Failure

/-- What went wrong in one sentence. -/
def message : Failure → String
  | unreadable path => "failed to read '" ++ path ++ "'"
  | badDocument _ _ _ => "failed to parse schema document"
  | badSettings _ _ => "failed to parse swagdef.toml"
  | noDefinitions _ => "schema document has no definitions"
  | unknownDefinition name => "unknown definition '" ++ name ++ "'"

/-- The word under which a kind of failure can be looked up. -/
def code? : Failure → Option String
  | unreadable _ => none
  | badDocument _ _ _ => some "swagdef::parse_error"
  | badSettings _ _ => some "swagdef::config_error"
  | noDefinitions _ => some "swagdef::missing_definitions"
  | unknownDefinition _ => some "swagdef::unknown_definition"

/-- What to do about it. -/
def help? : Failure → Option String
  | unreadable _ =>
    some "pass the schema document with --input or set [input] path in swagdef.toml"
  | badDocument _ _ _ => none
  | badSettings _ _ => none
  | noDefinitions _ =>
    some ("expected a top-level `definitions` object (Swagger 2) " ++
      "or `components.schemas` (OpenAPI 3)")
  | unknownDefinition _ => some "run 'swagdef check' to list the definitions in the document"

/-- The name of the text that is at fault. -/
def file? : Failure → Option String
  | unreadable _ => none
  | badDocument file _ _ => some file
  | badSettings file _ => some file
  | noDefinitions file => some file
  | unknownDefinition _ => none

/-- What in the text is at fault. What keeps a text from being a document of settings at all is not
worded here. -/
def cause? : Failure → Option String
  | badDocument _ text fault => some (fault.message text)
  | badSettings _ (.invalid message _) => some message
  | _ => none

/-- A remark on a stretch of a text, in bytes. -/
structure Label where
  remark : String
  start : Nat
  length : Nat
deriving DecidableEq

/-- The remark on the text that is at fault. A fault in a schema document has a place and no
length. -/
def label? : Failure → Option Label
  | badDocument _ text fault =>
    (Text.labelByte text (fault.place text)).map fun start => ⟨"parse error here", start, 0⟩
  | badSettings _ (.invalid _ span) =>
    some ⟨"invalid configuration", span.start, span.stop - span.start⟩
  | _ => none

end Failure

/-! ### Texts with a name -/

/-- The document of a text. The name of the text is for failures. -/
def Schema.Document.ofText (file : String) (text : List Char) :
    Except Failure Schema.Document :=
  match Schema.DefinitionSources.ofText text with
  | .error fault => .error (.badDocument file text fault)
  | .ok sources =>
    match sources.chosen with
    | none => .error (.noDefinitions file)
    | some definitions => .ok ⟨Schema.Node.ofEntries definitions⟩

/-- The settings of a text. The name of the text is for failures. -/
def Settings.ofNamedText (file : String) (text : List Char) : Except Failure Settings :=
  (Settings.ofText text).mapError (Failure.badSettings file)

end SchemaTypes
