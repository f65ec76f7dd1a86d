import SchemaTypes.TypeScript.Declaration

/-!
# Source files

A source file is an optional header, written as comment lines, and declarations with an empty line
between neighbours. Whether a declaration is exported is settled when it is added.

## Main definitions

* `TypeScript.SourceFile`: a file that is being put together
* `TypeScript.SourceFile.render`: its text
* `TypeScript.RenderOptions`: how declarations are turned into a file
* `TypeScript.renderDeclarations`: the text of declarations
-/

namespace SchemaTypes

namespace TypeScript

open Code

/-- A source file that is being put together. -/
structure SourceFile where
  header : Option String
  /-- the code of each declaration -/
  body : List (List Fragment)
  /-- whether declarations added from here on are exported -/
  exported : Bool

namespace SourceFile

/-- A file without header or declarations, to which exported declarations are added. -/
def new : SourceFile where
  header := none
  body := []
  exported := true

/-- Sets or clears the header. -/
def withHeader (file : SourceFile) (header : Option String) : SourceFile :=
  { file with header := header }

/-- Settles whether the declarations that follow are exported. -/
def withExported (file : SourceFile) (exported : Bool) : SourceFile :=
  { file with exported := exported }

/-- Adds a declaration. -/
def add (file : SourceFile) (declaration : Declaration) : SourceFile :=
  { file with body := file.body ++ [declaration.statement.fragments file.exported] }

/-- Adds declarations in order. -/
def addAll (file : SourceFile) (declarations : List Declaration) : SourceFile :=
  declarations.foldl add file

/-- Whether there is neither a header nor a declaration. -/
def isEmpty (file : SourceFile) : Bool :=
  file.header.isNone && file.body.isEmpty

/-- A line of the header. -/
def headerLine (line : List Char) : String :=
  if line.isEmpty then "//" else "// " ++ String.ofList line

/-- Writes the header. -/
def writeHeader (buffer : Buffer) (header : String) : Buffer :=
  ((Text.lines header.toList).map headerLine).foldl Buffer.line buffer

/-- Writes declarations with an empty line between neighbours. -/
def writeBody (buffer : Buffer) : List (List Fragment) → Buffer
  | [] => buffer
  | [fragments] => buffer.applyAll fragments
  | fragments :: rest => writeBody (buffer.applyAll fragments).blank rest

/-- The text of a file. -/
def render (file : SourceFile) (indent : Indent) : String :=
  let top :=
    match file.header with
    | none => Buffer.new indent
    | some header =>
      let written := writeHeader (Buffer.new indent) header
      if file.body.isEmpty then written else written.blank
  (writeBody top file.body).text

end SourceFile

/-- How declarations are turned into a file. -/
structure RenderOptions where
  indent : Indent
  exported : Bool
  header : Option String

/-- Two spaces, exported declarations and no header. -/
def RenderOptions.standard : RenderOptions where
  indent := .standard
  exported := true
  header := none

/-- The text of declarations. -/
def renderDeclarations (options : RenderOptions) (declarations : List Declaration) : String :=
  (((SourceFile.new.withHeader options.header).withExported options.exported).addAll
    declarations).render options.indent

end TypeScript

end SchemaTypes
