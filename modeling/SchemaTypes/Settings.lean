import SchemaTypes.Text.Lines
import SchemaTypes.Toml.Document

/-!
# Settings

Settings are read from a TOML document with two sections: where the schema document lies, and how
the declarations are written. Every section and every field may be left out. A name that is not
known and a value of the wrong kind are faults, and the first one counts, where the entries of a
table are visited in the order of their names.

A section may also be a list of its values in the order of its fields. Values behind the last field
are passed over.

## Main definitions

* `Settings`: the settings
* `Settings.Fault`: what is wrong with a document
* `Settings.Group`: the fields of one table
* `Settings.ofText`: the settings of a text
-/

namespace SchemaTypes

open Toml (Span)

/-- Where the schema document lies, and how the declarations are written. -/
structure Settings where
  inputPath : String
  /-- the width of one level of indentation, where zero stands for tabs -/
  indent : Nat
  exported : Bool
  header : Option String
deriving DecidableEq

namespace Settings

/-- What holds where nothing else is said. -/
def standard : Settings where
  inputPath := "swagger.json"
  indent := 2
  exported := true
  header := none

/-- What is wrong with a document of settings. -/
inductive Fault
  /-- the text is not well formed -/
  | malformed
  /-- the text is well formed, but a stretch of it does not say what it should -/
  | invalid (message : String) (span : Span)
deriving DecidableEq

/-! ### Values of a kind -/

/-- What is wrong with a value that is not of the kind its place wants. -/
def refusal (wanted : String) : Toml.Value → String
  | .text value => (Found.text value).mismatch wanted
  | .integer value => (Found.integer value).mismatch wanted
  | .floating digits => (Found.floating digits).mismatch wanted
  | .boolean value => (Found.boolean value).mismatch wanted
  | .unheld true => "integer number overflowed"
  | .unheld false => "floating-point number overflowed"
  | .moment => Found.map.mismatch wanted
  | .array _ _ => Found.sequence.mismatch wanted
  | .table _ _ => Found.map.mismatch wanted

/-- The fault of a value that is not of the kind its place wants. -/
def mismatch (value : Toml.Value) (wanted : String) (span : Span) : Fault :=
  .invalid (refusal wanted value) span

/-- A text. -/
def readText (wanted : String) (span : Span) : Toml.Value → Except Fault String
  | .text value => .ok value
  | value => .error (mismatch value wanted span)

/-- A truth value. -/
def readTruth (span : Span) : Toml.Value → Except Fault Bool
  | .boolean value => .ok value
  | value => .error (mismatch value "a boolean" span)

/-- What a diagnostic calls the kind of a width: a whole number of eight bits. -/
def widthWanted : String := "u8"

/-- A width, which is below 256. An integer of sixty-four bits beyond that is out of range, a larger
one is not of the kind. -/
def readWidth (span : Span) : Toml.Value → Except Fault Nat
  | .integer value =>
    if 0 ≤ value ∧ value < 256 then .ok value.toNat
    else if -Int.pow 2 63 ≤ value ∧ value < Int.pow 2 64 then
      .error (.invalid ("invalid value: " ++ (Found.integer value).describe ++ ", expected " ++
        widthWanted) span)
    else .error (mismatch (.integer value) widthWanted span)
  | value => .error (mismatch value widthWanted span)

/-! ### Tables of fields -/

/-- The fields of one table. -/
structure Group (φ : Type) where
  /-- what a diagnostic calls the table -/
  wanted : String
  /-- the fields in the order of a list of their values -/
  fields : List φ
  key : φ → String
  /-- what the settings become by the value of a field -/
  fill : Settings → φ → Span → Toml.Value → Except Fault Settings

namespace Group

variable {φ : Type}

/-- The names to choose from, as a diagnostic gives them. -/
def choices (group : Group φ) : String :=
  match group.fields.map fun field => "`" ++ group.key field ++ "`" with
  | [one] => one
  | [one, two] => one ++ " or " ++ two
  | names => "one of " ++ Text.joined ", " names

/-- The fault of a name that is not that of a field. -/
def unknown (group : Group φ) (name : String) (span : Span) : Fault :=
  .invalid ("unknown field `" ++ name ++ "`, expected " ++ group.choices) span

/-- Adds an entry to entries in the order of their names. -/
def insertByName (entry : Toml.Entry) : List Toml.Entry → List Toml.Entry
  | [] => [entry]
  | first :: rest =>
    if entry.1.text < first.1.text then entry :: first :: rest
    else first :: insertByName entry rest

/-- Entries in the order of their names. -/
def byName (entries : List Toml.Entry) : List Toml.Entry :=
  entries.foldl (fun sorted entry => insertByName entry sorted) []

/-- The settings with one entry more. -/
def readEntry (group : Group φ) (settings : Settings) (entry : Toml.Entry) :
    Except Fault Settings :=
  match group.fields.find? fun field => group.key field = entry.1.text with
  | some field => group.fill settings field entry.2.1 entry.2.2
  | none => .error (group.unknown entry.1.text entry.1.span)

/-- The settings with the entries of a table. -/
def readEntries (group : Group φ) (settings : Settings) (entries : List Toml.Entry) :
    Except Fault Settings :=
  (byName entries).foldlM group.readEntry settings

/-- The settings with the values of fields in order. -/
def readItems (group : Group φ) (settings : Settings) (items : List (Span × Toml.Value)) :
    Except Fault Settings :=
  (group.fields.zip items).foldlM
    (fun settings item => group.fill settings item.1 item.2.1 item.2.2) settings

/-- The name under which a date or a time in place of a table shows itself. -/
def momentName : String := "$__toml_private_datetime"

/-- The settings with a table, or a list in place of one. -/
def read (group : Group φ) (settings : Settings) (span : Span) :
    Toml.Value → Except Fault Settings
  | .table _ entries => group.readEntries settings entries
  | .array _ items => group.readItems settings items
  | .moment => .error (group.unknown momentName span)
  | value => .error (mismatch value group.wanted span)

end Group

/-! ### The document -/

/-- The fields of the section on the schema document. -/
inductive InputField
  | path
deriving DecidableEq

/-- The section on the schema document. -/
def inputGroup : Group InputField where
  wanted := "struct InputConfig"
  fields := [.path]
  key _ := "path"
  fill settings _ span value := do
    let path ← readText "path string" span value
    .ok { settings with inputPath := path }

/-- The fields of the section on the declarations. -/
inductive OutputField
  | indent
  | exported
  | header
deriving DecidableEq

/-- The section on the declarations. -/
def outputGroup : Group OutputField where
  wanted := "struct TypeScriptConfig"
  fields := [.indent, .exported, .header]
  key
    | .indent => "indent"
    | .exported => "export"
    | .header => "header"
  fill settings field span value :=
    match field with
    | .indent => do
      let indent ← readWidth span value
      .ok { settings with indent := indent }
    | .exported => do
      let exported ← readTruth span value
      .ok { settings with exported := exported }
    | .header => do
      let header ← readText "a string" span value
      .ok { settings with header := some header }

/-- The sections of a document. -/
inductive Section
  | input
  | output
deriving DecidableEq

/-- The document, whose fields are its sections. -/
def rootGroup : Group Section where
  wanted := "struct Config"
  fields := [.input, .output]
  key
    | .input => "input"
    | .output => "typescript"
  fill settings
    | .input => inputGroup.read settings
    | .output => outputGroup.read settings

/-- The settings of a text. -/
def ofText (text : List Char) : Except Fault Settings :=
  match Toml.readDocument? text with
  | none => .error .malformed
  | some entries => rootGroup.readEntries standard entries

end Settings

end SchemaTypes
