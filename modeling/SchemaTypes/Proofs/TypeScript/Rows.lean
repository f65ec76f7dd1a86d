import SchemaTypes.TypeScript.SourceFile
import SchemaTypes.Proofs.Code.Layout

/-!
# The rows of statements and files

A statement and a file are laid out through fragments. Their rows can be listed directly: the
comment of a statement, its head, a comment and a line for each member one level deeper, and a
closing line; and for a file its header, an empty row where something follows it, and the statements
with an empty row between neighbours.

## Main definitions

* `TypeScript.Statement.lines`: the members of a statement, each with its documentation
* `TypeScript.Statement.rows`, `TypeScript.SourceFile.rows`: the rows

## Main results

* `TypeScript.Statement.rowsOf_fragments`: the rows of a statement are those of its code
* `TypeScript.SourceFile.render_eq`: the text of a file is that of its rows
* `TypeScript.renderDeclarations_eq`: the text of a run is that of its rows
-/

namespace SchemaTypes

namespace TypeScript

open Code

/-! ### Statements -/

/-- The rows of a documentation text, if there is one. -/
def docRows (level : Nat) (doc : Option String) : List Row :=
  doc.toList.flatMap (commentRows level)

theorem rowsOf_docFragments (level : Nat) (doc : Option String) :
    rowsOf level (docFragments doc) = docRows level doc := by
  cases doc with
  | none => rfl
  | some text => simp [docFragments, docRows, rowsOf, Fragment.rows]

/-- A member as it is written, with its documentation. -/
structure MemberLine where
  doc : Option String
  text : String

/-- The line of a field. -/
def Field.line (field : Field) : MemberLine where
  doc := field.doc
  text := memberName field.name ++ (if field.optional then "?" else "") ++ ": " ++ field.type ++ ";"

/-- The line of a member of an enum, which has no documentation. -/
def EnumMember.line (member : EnumMember) : MemberLine where
  doc := none
  text := memberName member.name ++ " = " ++ member.literal ++ ","

/-- The rows of members at a level. -/
def memberRows (level : Nat) (members : List MemberLine) : List Row :=
  members.flatMap fun member => docRows level member.doc ++ [.line level member.text]

theorem rowsOf_fields (level : Nat) (fields : List Field) :
    rowsOf level (fields.flatMap Field.fragments) = memberRows level (fields.map Field.line) := by
  induction fields with
  | nil => rfl
  | cons field rest ih =>
    rw [List.flatMap_cons, rowsOf_append, ih, Field.fragments, rowsOf_append, rowsOf_docFragments]
    rfl

theorem rowsOf_enumMembers (level : Nat) (members : List EnumMember) :
    rowsOf level (members.map EnumMember.fragment) =
      memberRows level (members.map EnumMember.line) := by
  induction members with
  | nil => rfl
  | cons member rest ih =>
    rw [List.map_cons, rowsOf, ih]
    rfl

/-- What the line of a head ends with. Without members nothing else follows. -/
def opening (empty : Bool) : String :=
  if empty then " \x7b\x7d" else " \x7b"

/-- The rows of a head and its members. -/
def bodyRows (level : Nat) (head : String) (members : List MemberLine) : List Row :=
  .line level (head ++ opening members.isEmpty) ::
    if members.isEmpty then [] else memberRows (level + 1) members ++ [.line level "\x7d"]

/-- A body is empty if there are no members. -/
theorem rowsOf_bodyFragment (level : Nat) (head : String) {body : List Fragment}
    {members : List MemberLine} (hbody : rowsOf (level + 1) body = memberRows (level + 1) members)
    (hempty : body.isEmpty = members.isEmpty) :
    rowsOf level [bodyFragment head body] = bodyRows level head members := by
  rw [bodyFragment, bodyRows, hempty, opening, rowsOf, rowsOf, List.append_nil]
  split
  · rfl
  · rw [Fragment.rows, hbody]
    rfl

namespace Statement

def doc : Statement → Option String
  | interface _ doc _ => doc
  | enumeration _ doc _ => doc

/-- What stands in front of the body of a statement. -/
def head (exported : Bool) : Statement → String
  | interface name _ _ => exportMark exported ++ "interface " ++ name
  | enumeration name _ _ => exportMark exported ++ "enum " ++ name

def lines : Statement → List MemberLine
  | interface _ _ fields => fields.map Field.line
  | enumeration _ _ members => members.map EnumMember.line

/-- The rows of a statement. -/
def rows (exported : Bool) (statement : Statement) : List Row :=
  docRows 0 statement.doc ++ bodyRows 0 (statement.head exported) statement.lines

/-- **The rows of a statement are those of its code.** -/
theorem rowsOf_fragments (exported : Bool) (statement : Statement) :
    rowsOf 0 (statement.fragments exported) = statement.rows exported := by
  cases statement with
  | interface name doc fields =>
    have hempty : (fields.flatMap Field.fragments).isEmpty = (fields.map Field.line).isEmpty := by
      cases fields <;> simp [Field.fragments]
    rw [fragments, rowsOf_append, rowsOf_docFragments,
      rowsOf_bodyFragment 0 _ (rowsOf_fields 1 fields) hempty]
    rfl
  | enumeration name doc members =>
    have hempty : (members.map EnumMember.fragment).isEmpty =
        (members.map EnumMember.line).isEmpty := by
      cases members <;> rfl
    rw [fragments, rowsOf_append, rowsOf_docFragments,
      rowsOf_bodyFragment 0 _ (rowsOf_enumMembers 1 members) hempty]
    rfl

end Statement

/-! ### Files -/

namespace SourceFile

def headerRows (header : String) : List Row :=
  ((Text.lines header.toList).map headerLine).map (.line 0)

/-- The rows in front of the declarations, given whether there are none. -/
def topRows (header : Option String) (empty : Bool) : List Row :=
  match header with
  | none => []
  | some header => headerRows header ++ if empty then [] else [.blank]

/-- The rows of a file. -/
def rows (file : SourceFile) : List Row :=
  topRows file.header file.body.isEmpty ++ [Row.blank].intercalate (file.body.map (rowsOf 0))

theorem writeBody_eq {buffer : Buffer} (hlevel : buffer.level = 0)
    (body : List (List Fragment)) :
    writeBody buffer body = buffer.write ([Row.blank].intercalate (body.map (rowsOf 0))) := by
  induction body generalizing buffer with
  | nil => rw [writeBody, List.map_nil, List.intercalate_nil, Buffer.write_nil]
  | cons fragments rest ih =>
    cases rest with
    | nil =>
      rw [writeBody, Buffer.applyAll_eq, hlevel, List.map_singleton, List.intercalate_singleton]
    | cons next rest =>
      have hafter : ((buffer.applyAll fragments).blank).level = 0 := by
        rw [Buffer.applyAll_eq, Buffer.blank_eq, Buffer.write_level, Buffer.write_level, hlevel]
      rw [writeBody, ih hafter, Buffer.applyAll_eq, Buffer.blank_eq, Buffer.write_write,
        Buffer.write_write, hlevel]
      · simp only [List.map_cons, List.intercalate_cons_cons, List.append_assoc]
      · exact List.cons_ne_nil next rest

/-- **The text of a file is that of its rows.** -/
theorem render_eq (file : SourceFile) (indent : Indent) :
    file.render indent = layout indent file.rows := by
  have hnew : ∀ rows, ((Buffer.new indent).write rows).text = layout indent rows := by
    intro rows
    rw [Buffer.write, Buffer.new, String.empty_append]
  have htop : ∀ rows, (writeBody ((Buffer.new indent).write rows) file.body).text =
      layout indent (rows ++ [Row.blank].intercalate (file.body.map (rowsOf 0))) := by
    intro rows
    rw [writeBody_eq rfl, Buffer.write_write, hnew]
  rw [render, rows]
  cases file.header with
  | none => exact htop []
  | some header =>
    have hheader : writeHeader (Buffer.new indent) header =
        (Buffer.new indent).write (headerRows header) :=
      Buffer.foldl_line _ _
    simp only [hheader, topRows]
    split
    · rw [List.append_nil]
      exact htop _
    · rw [Buffer.blank_eq, Buffer.write_write]
      exact htop _

theorem addAll_eq (file : SourceFile) (declarations : List Declaration) :
    file.addAll declarations =
      { file with
        body := file.body ++ declarations.map fun d => d.statement.fragments file.exported } := by
  induction declarations generalizing file with
  | nil => rw [addAll, List.foldl_nil, List.map_nil, List.append_nil]
  | cons declaration rest ih =>
    have hrest := ih (file.add declaration)
    rw [addAll] at hrest ⊢
    rw [List.foldl_cons, hrest, add, List.map_cons, List.append_assoc, List.singleton_append]

end SourceFile

/-- The rows of the declarations of a run, with an empty row between neighbours. -/
def declarationRows (exported : Bool) (declarations : List Declaration) : List Row :=
  [Row.blank].intercalate (declarations.map fun d => d.statement.rows exported)

/-- **The text of a run is that of its rows.** -/
theorem renderDeclarations_eq (options : RenderOptions) (declarations : List Declaration) :
    renderDeclarations options declarations =
      layout options.indent
        (SourceFile.topRows options.header declarations.isEmpty ++
          declarationRows options.exported declarations) := by
  have hbody : (declarations.map fun d => d.statement.fragments options.exported).map (rowsOf 0) =
      declarations.map fun d => d.statement.rows options.exported := by
    rw [List.map_map]
    exact List.map_congr_left fun d _ => Statement.rowsOf_fragments options.exported d.statement
  rw [renderDeclarations, SourceFile.addAll_eq, SourceFile.render_eq, SourceFile.rows]
  simp only [SourceFile.withExported, SourceFile.withHeader, SourceFile.new, List.nil_append,
    List.isEmpty_map, hbody]
  rfl

end TypeScript

end SchemaTypes
