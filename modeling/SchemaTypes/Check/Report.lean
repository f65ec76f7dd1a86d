import SchemaTypes.Emission.Run

/-!
# Check reports

A report sums up a document and what would be generated from it: how many definitions there are of
each shape, how many interfaces and enums they give, and what in them is probably not meant.

## Main definitions

* `Check.Report`: the summary
* `Check.Report.ofDocument`: the summary of a document
* `Check.Line`: a line of a report, by its role
* `Check.Report.lines`: the lines in reading order
* `Check.Report.output`, `Check.Report.warningOutput`: the two texts of a report
-/

namespace SchemaTypes

namespace Check

open Schema

/-- The summary of a document. -/
structure Report where
  inputPath : String
  language : String
  definitions : Nat
  /-- the number of definitions of each shape, in the order in which the shapes first appear -/
  kinds : List (String × Nat)
  interfaces : Nat
  enums : Nat
  warnings : List String

/-- The language of the declarations. -/
def targetLanguage : String := "typescript"

/-! ### The summary -/

/-- Counts one more of a kind. -/
def countKind (kind : String) : List (String × Nat) → List (String × Nat)
  | [] => [(kind, 1)]
  | (name, count) :: rest =>
    if name = kind then (name, count + 1) :: rest else (name, count) :: countKind kind rest

/-- What in a definition is probably not meant: a composition that is not a base and an extension,
or an enum without values. -/
def lint (name : String) (definition : Node) : List String :=
  match definition.kind with
  | .composition parts =>
    let count := Decimal.natText parts.length
    if parts.length < 2 then
      [name ++ ": allOf has " ++ count ++ " part(s), expected a base and an extension"]
    else if 2 < parts.length then
      [name ++ ": allOf has " ++ count ++ " parts, only the second one is used"]
    else []
  | .enumeration [] => [name ++ ": enum has no values"]
  | _ => []

/-- The summary of a document that was read from a path. -/
def Report.ofDocument (document : Document) (inputPath : String) : Report :=
  let context := Emission.emitAll document.definitions
  { inputPath := inputPath
    language := targetLanguage
    definitions := document.definitions.length
    kinds := document.definitions.foldl
      (fun kinds definition => countKind definition.2.shape.name kinds) []
    interfaces := context.recordCount
    enums := context.enumCount
    warnings := document.definitions.flatMap fun definition => lint definition.1 definition.2 }

/-! ### The lines -/

/-- A line of a report, by its role. -/
inductive Line
  /-- the heading of counts -/
  | heading (name : String)
  /-- a count under a heading -/
  | count (key : String) (value : String)
  | warning (text : String)
  /-- a line as it is -/
  | verbatim (text : String)
  | newline
deriving DecidableEq

/-- A number of things. -/
def plural (count : Nat) (noun : String) : String :=
  Decimal.natText count ++ " " ++ noun ++ (if count = 1 then "" else "s")

/-- The lines of a report in reading order. -/
def Report.lines (report : Report) : List Line :=
  let warnings := report.warnings.map Line.warning
  warnings ++ (if warnings.isEmpty then [] else [.newline]) ++
    [.verbatim ("✓ " ++ report.inputPath ++ " is valid"), .newline,
      .heading (plural report.definitions "definition")] ++
    report.kinds.map (fun kind => Line.count kind.1 (Decimal.natText kind.2)) ++
    [.newline, .heading ("would generate (" ++ report.language ++ ")"),
      .count "interfaces" (Decimal.natText report.interfaces),
      .count "enums" (Decimal.natText report.enums)]

/-- What a line adds to the output. A warning adds nothing. -/
def Line.output : Line → String
  | heading name => name ++ ":\n"
  | count key value => "  " ++ key ++ ": " ++ value ++ "\n"
  | warning _ => ""
  | verbatim text => text ++ "\n"
  | newline => "\n"

/-- What a line adds to the warnings. Only a warning adds something. -/
def Line.warningOutput : Line → String
  | warning text => "warning: " ++ text ++ "\n"
  | _ => ""

/-- The output of a report. -/
def Report.output (report : Report) : String :=
  report.lines.foldl (fun sofar line => sofar ++ line.output) ""

/-- The warnings of a report, apart from its output. -/
def Report.warningOutput (report : Report) : String :=
  report.lines.foldl (fun sofar line => sofar ++ line.warningOutput) ""

end Check

end SchemaTypes
