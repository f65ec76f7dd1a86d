import SchemaTypes.Failure
import SchemaTypes.Files.Path
import SchemaTypes.Files.Reading

/-!
# Settings and documents in files

Settings may lie in a file. The path of the schema document that they give is seen from the
directory of that file, and where there is no such file the standard settings hold.

## Main definitions

* `SettingsFile`: settings and the path of their file
* `SettingsFile.inputPath`: the path of the schema document
* `Files.Reading.content`, `Files.Reading.document`: the text or the schema document that has been
  read
* `Files.Reading.settings`, `Files.Reading.settingsOrStandard`: the settings that have been read
-/

namespace SchemaTypes

open Files

/-- Settings and the path of the file they belong to. -/
structure SettingsFile where
  path : String
  settings : Settings

/-- The path of the schema document: an absolute one as it is, and any other one seen from the
directory of the settings. -/
def SettingsFile.inputPath (file : SettingsFile) : String :=
  let path := file.settings.inputPath.toList
  match parent? file.path.toList with
  | some directory =>
    if isAbsolute path then file.settings.inputPath else String.ofList (join directory path)
  | none => file.settings.inputPath

/-! ### What a reading gives -/

/-- The text that has been read from a path. -/
def Files.Reading.content (path : String) : Reading → Except Failure (List Char)
  | .text content => .ok content
  | _ => .error (.unreadable path)

/-- The schema document that has been read from a path. -/
def Files.Reading.document (path : String) (reading : Reading) :
    Except Failure Schema.Document := do
  let content ← reading.content path
  Schema.Document.ofText path content

/-- The settings that have been read from a path. -/
def Files.Reading.settings (path : String) (reading : Reading) : Except Failure SettingsFile := do
  let content ← reading.content path
  let settings ← Settings.ofNamedText path content
  .ok ⟨path, settings⟩

/-- The settings that have been read from a path, or the standard ones if nothing is there. -/
def Files.Reading.settingsOrStandard (path : String) (reading : Reading) :
    Except Failure SettingsFile :=
  if reading = .missing then .ok ⟨path, .standard⟩ else reading.settings path

end SchemaTypes
