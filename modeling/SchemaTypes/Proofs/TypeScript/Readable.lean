import SchemaTypes.Proofs.Code.CodeLines
import SchemaTypes.Proofs.Decimal.Format
import SchemaTypes.Proofs.TypeScript.Outline
import SchemaTypes.Proofs.TypeScript.Rows

/-!
# Reading a text back

The text of a run is code with comments in it: those of a header, and the documentation of
declarations and members, which is arbitrary text. Leaving the comments out leaves the code of the
outlines, one after another, and that code tells the outlines. So all that is lost by writing
declarations is their documentation.

A name that is no identifier could say anything in the place of a name, and so could a type with a
line feed in it. Neither comes out of a schema with sensible names, and neither is looked at here.

## Main definitions

* `TypeScript.Declaration.Writable`: names that are identifiers, and types that stay on one line

## Main results

* `TypeScript.codeLines_renderDeclarations`: the code of a run is that of its outlines
* `TypeScript.outline_eq_of_renderDeclarations_eq`: a text tells the outlines of its declarations
-/

namespace SchemaTypes

namespace TypeScript

open Code

/-- A declaration whose name is an identifier. The types of its members, which are written as they
are, stay on one line. -/
structure Declaration.Writable (declaration : Declaration) : Prop where
  name : isIdentifier declaration.name = true
  types : ∀ record ∈ declaration.record?, ∀ member ∈ record.members, '\n' ∉ member.type.toList

/-! ### Lines of code -/

theorem codeOf_memberName_append (name : String) (rest : List Char) :
    codeOf ((memberName name).toList ++ rest) = some ((memberName name).toList ++ rest) := by
  obtain ⟨c, tail, hname, hc⟩ := exists_cons_memberName name
  rw [hname, List.cons_append]
  have hne : ∀ d, isIdentifierStart d = false → d ≠ '"' → c ≠ d := by
    rintro d hstart hquote rfl
    split at hc
    · rw [hstart] at hc
      exact Bool.noConfusion hc
    · exact hquote hc
  have hblank := hne ' ' (by decide) (by decide)
  have htab := hne '\t' (by decide) (by decide)
  have hslash := hne '/' (by decide) (by decide)
  have hstar := hne '*' (by decide) (by decide)
  exact codeOf_cons (by simp [isMargin, hblank, htab]) (by simp [isCode, hslash, hstar])

theorem notMem_literalOf (value : Schema.EnumValue) : '\n' ∉ (literalOf value).toList := by
  have hliteral : ∀ text, '\n' ∉ (Text.literal text).toList :=
    fun text hmem => absurd (Text.le_of_mem_literal hmem) (by decide)
  cases value with
  | text value => exact hliteral value
  | number value => exact fun hmem => absurd (value.isNumeral_render _ hmem) (by decide)
  | boolean value => exact hliteral _

namespace Outline

theorem codeOf_line {outline : Outline} {line : String} (h : line ∈ outline.lines) :
    codeOf line.toList = some line.toList := by
  cases outline with
  | enumeration name members =>
    obtain ⟨case, -, rfl⟩ := List.mem_map.mp h
    rw [case.toList_line]
    exact codeOf_memberName_append _ _
  | record name members =>
    obtain ⟨field, -, rfl⟩ := List.mem_map.mp h
    rw [field.toList_line]
    exact codeOf_memberName_append _ _

theorem codeOf_head (exported : Bool) (outline : Outline) :
    codeOf (outline.head exported).toList = some (outline.head exported).toList := by
  have hstart : ∃ c rest, (outline.head exported).toList = c :: rest ∧ (c = 'e' ∨ c = 'i') := by
    cases exported <;> cases outline <;> simp [head, Statement.exportMark, keyword]
  obtain ⟨c, rest, hhead, rfl | rfl⟩ := hstart
  · rw [hhead]
    exact codeOf_cons (by decide) rfl
  · rw [hhead]
    exact codeOf_cons (by decide) rfl

end Outline

/-! ### Declarations and their outlines -/

namespace Declaration

theorem lines_statement (declaration : Declaration) :
    declaration.statement.lines.map MemberLine.text = declaration.outline.lines := by
  cases declaration with
  | enumeration declaration =>
    simp only [statement, Statement.lines, outline, Outline.lines, List.map_map]
    rfl
  | record declaration =>
    simp only [statement, Statement.lines, outline, Outline.lines, List.map_map]
    rfl

theorem head_statement (exported : Bool) (declaration : Declaration) :
    declaration.statement.head exported ++ opening declaration.statement.lines.isEmpty =
      declaration.outline.head exported := by
  rw [Outline.head, ← lines_statement, List.isEmpty_map]
  cases declaration <;> rfl

theorem name_outline (declaration : Declaration) :
    declaration.outline.name = declaration.name := by
  cases declaration <;> rfl

end Declaration

/-! ### Rows -/

theorem filterMap_code_docRows (level : Nat) (doc : Option String) :
    (docRows level doc).filterMap Row.code = [] := by
  cases doc with
  | none => rfl
  | some text =>
    rw [docRows, Option.toList_some, List.flatMap_singleton, filterMap_code_commentRows]

/-- The code of members is one line for each, without its documentation. -/
theorem filterMap_code_memberRows (level : Nat) {members : List MemberLine}
    (h : ∀ member ∈ members, codeOf member.text.toList = some member.text.toList) :
    (memberRows level members).filterMap Row.code =
      (members.map MemberLine.text).map String.toList := by
  induction members with
  | nil => rfl
  | cons member rest ih =>
    obtain ⟨hmember, hrest⟩ := List.forall_mem_cons.mp h
    have hline : List.filterMap Row.code [.line level member.text] = [member.text.toList] := by
      rw [List.filterMap_cons, Row.code, hmember]
      rfl
    have hcons : memberRows level (member :: rest) =
        docRows level member.doc ++ [.line level member.text] ++ memberRows level rest := rfl
    rw [hcons, List.filterMap_append, List.filterMap_append, filterMap_code_docRows, hline,
      ih hrest]
    rfl

/-- The code of a declaration is that of its outline. -/
theorem filterMap_code_rows (exported : Bool) (declaration : Declaration) :
    (declaration.statement.rows exported).filterMap Row.code =
      (declaration.outline.code exported).map String.toList := by
  have hlines := declaration.lines_statement
  have hmembers : ∀ member ∈ declaration.statement.lines,
      codeOf member.text.toList = some member.text.toList := by
    intro member hmember
    exact Outline.codeOf_line (hlines ▸ List.mem_map_of_mem hmember)
  have hhead : Row.code (.line 0 (declaration.outline.head exported)) =
      some (declaration.outline.head exported).toList :=
    declaration.outline.codeOf_head exported
  rw [Statement.rows, List.filterMap_append, filterMap_code_docRows, List.nil_append, bodyRows,
    declaration.head_statement, List.filterMap_cons_some hhead, Outline.code, List.map_cons,
    Outline.body, ← hlines, List.isEmpty_map]
  split
  · rfl
  · rw [List.filterMap_append, filterMap_code_memberRows 1 hmembers, List.map_append]
    rfl

theorem filterMap_code_declarationRows (exported : Bool) (declarations : List Declaration) :
    (declarationRows exported declarations).filterMap Row.code =
      ((declarations.map Declaration.outline).flatMap (Outline.code exported)).map
        String.toList := by
  rw [declarationRows]
  induction declarations with
  | nil => rfl
  | cons first rest ih =>
    rw [List.map_cons, List.map_cons, List.flatMap_cons, List.map_append, ← ih,
      ← filterMap_code_rows]
    cases rest with
    | nil =>
      rw [List.map_nil, List.intercalate_singleton, List.intercalate_nil, List.filterMap_nil,
        List.append_nil]
    | cons next rest =>
      have hblank : [Row.blank].filterMap Row.code = [] := rfl
      rw [List.map_cons, List.intercalate_cons_cons, List.filterMap_append, List.filterMap_append,
        hblank, List.append_nil]

theorem filterMap_code_topRows (header : Option String) (empty : Bool) :
    (SourceFile.topRows header empty).filterMap Row.code = [] := by
  have hheader : ∀ line, codeOf (SourceFile.headerLine line).toList = none := by
    intro line
    rw [SourceFile.headerLine]
    split
    · rfl
    · rw [String.toList_append]
      rfl
  cases header with
  | none => rfl
  | some header =>
    have hrows : (SourceFile.headerRows header).filterMap Row.code = [] := by
      rw [List.filterMap_eq_nil_iff]
      intro row hrow
      obtain ⟨written, hwritten, rfl⟩ := List.mem_map.mp hrow
      obtain ⟨line, -, rfl⟩ := List.mem_map.mp hwritten
      exact hheader line
    rw [SourceFile.topRows, List.filterMap_append, hrows, List.nil_append]
    split <;> rfl

/-! ### Unbroken rows -/

theorem unbroken_of_mem_docRows {level : Nat} {doc : Option String} {row : Row}
    (h : row ∈ docRows level doc) : row.Unbroken := by
  obtain ⟨text, -, htext⟩ := List.mem_flatMap.mp h
  exact unbroken_of_mem_commentRows htext

/-- A line of a header holds no line feed, as the header is taken apart at them. -/
theorem unbroken_of_mem_topRows {header : Option String} {empty : Bool} {row : Row}
    (h : row ∈ SourceFile.topRows header empty) : row.Unbroken := by
  cases header with
  | none => exact absurd h List.not_mem_nil
  | some header =>
    rcases List.mem_append.mp h with h | h
    · obtain ⟨written, hwritten, rfl⟩ := List.mem_map.mp h
      obtain ⟨line, hline, rfl⟩ := List.mem_map.mp hwritten
      have hwhole : '\n' ∉ (SourceFile.headerLine line).toList := by
        rw [SourceFile.headerLine]
        split <;> simp [Text.notMem_of_mem_lines hline]
      exact hwhole
    · split at h
      · exact absurd h List.not_mem_nil
      · obtain rfl := List.mem_singleton.mp h
        trivial

namespace Declaration.Writable

variable {declaration : Declaration}

theorem notMem_line (h : declaration.Writable) {line : MemberLine}
    (hline : line ∈ declaration.statement.lines) : '\n' ∉ line.text.toList := by
  cases declaration with
  | enumeration declaration =>
    obtain ⟨member, hmember, rfl⟩ := List.mem_map.mp hline
    obtain ⟨case, -, rfl⟩ := List.mem_map.mp hmember
    simp [EnumMember.line, notMem_memberName, notMem_literalOf]
  | record declaration =>
    obtain ⟨field, hfield, rfl⟩ := List.mem_map.mp hline
    obtain ⟨member, hmember, rfl⟩ := List.mem_map.mp hfield
    have htype := h.types declaration rfl member hmember
    cases member.optional <;> simp [Field.line, notMem_memberName, htype]

theorem notMem_head (h : declaration.Writable) (exported : Bool) :
    '\n' ∉ (declaration.outline.head exported).toList := by
  have hname : '\n' ∉ declaration.outline.name.toList := by
    rw [declaration.name_outline]
    exact notMem_of_isIdentifier h.name (by decide)
  have hmark : '\n' ∉ (Statement.exportMark exported).toList := by
    cases exported <;> decide
  have hkeyword : '\n' ∉ declaration.outline.keyword.toList := by
    cases declaration <;> simp [outline, Outline.keyword]
  have hopening : ∀ empty, '\n' ∉ (opening empty).toList := by decide
  rw [Outline.head]
  simp [hname, hmark, hkeyword, hopening]

/-- No row of a writable declaration holds a line feed. -/
theorem unbroken_of_mem_rows (h : declaration.Writable) {exported : Bool} {row : Row}
    (hrow : row ∈ declaration.statement.rows exported) : row.Unbroken := by
  rw [Statement.rows, bodyRows, declaration.head_statement] at hrow
  rcases List.mem_append.mp hrow with hrow | hrow
  · exact unbroken_of_mem_docRows hrow
  rcases List.mem_cons.mp hrow with rfl | hrow
  · exact h.notMem_head exported
  split at hrow
  · exact absurd hrow List.not_mem_nil
  rcases List.mem_append.mp hrow with hrow | hrow
  · obtain ⟨member, hmember, hrow⟩ := List.mem_flatMap.mp hrow
    rcases List.mem_append.mp hrow with hrow | hrow
    · exact unbroken_of_mem_docRows hrow
    · obtain rfl := List.mem_singleton.mp hrow
      exact h.notMem_line hmember
  · obtain rfl := List.mem_singleton.mp hrow
    exact (by decide : '\n' ∉ "\x7d".toList)

end Declaration.Writable

theorem unbroken_of_mem_declarationRows {exported : Bool} {declarations : List Declaration}
    (h : ∀ declaration ∈ declarations, declaration.Writable) {row : Row}
    (hrow : row ∈ declarationRows exported declarations) : row.Unbroken := by
  rw [declarationRows] at hrow
  induction declarations with
  | nil => exact absurd hrow List.not_mem_nil
  | cons first rest ih =>
    obtain ⟨hfirst, hrest⟩ := List.forall_mem_cons.mp h
    cases rest with
    | nil =>
      rw [List.map_singleton, List.intercalate_singleton] at hrow
      exact hfirst.unbroken_of_mem_rows hrow
    | cons next rest =>
      rw [List.map_cons, List.map_cons, List.intercalate_cons_cons, List.mem_append,
        List.mem_append] at hrow
      rcases hrow with (hrow | hrow) | hrow
      · exact hfirst.unbroken_of_mem_rows hrow
      · obtain rfl := List.mem_singleton.mp hrow
        trivial
      · exact ih hrest hrow

/-! ### The text of a run -/

/-- **The code of a run is that of its outlines**, one after another. Header, documentation and
indentation leave no trace. -/
theorem codeLines_renderDeclarations (options : RenderOptions) {declarations : List Declaration}
    (h : ∀ declaration ∈ declarations, declaration.Writable) :
    codeLines (renderDeclarations options declarations) =
      ((declarations.map Declaration.outline).flatMap (Outline.code options.exported)).map
        String.toList := by
  have hunbroken : ∀ row ∈ SourceFile.topRows options.header declarations.isEmpty ++
      declarationRows options.exported declarations, row.Unbroken := by
    intro row hrow
    rcases List.mem_append.mp hrow with hrow | hrow
    · exact unbroken_of_mem_topRows hrow
    · exact unbroken_of_mem_declarationRows h hrow
  rw [renderDeclarations_eq, codeLines_layout options.indent hunbroken, List.filterMap_append,
    filterMap_code_topRows, List.nil_append, filterMap_code_declarationRows]

/-- **A text tells the outlines of its declarations.** Two lists of declarations that are written
alike differ in their documentation at most: they are as long as each other, and agree place by
place on the kind of declaration, its name and its members. -/
theorem outline_eq_of_renderDeclarations_eq (options : RenderOptions) {xs ys : List Declaration}
    (hxs : ∀ declaration ∈ xs, declaration.Writable)
    (hys : ∀ declaration ∈ ys, declaration.Writable)
    (h : renderDeclarations options xs = renderDeclarations options ys) :
    xs.map Declaration.outline = ys.map Declaration.outline := by
  have hcode := congrArg codeLines h
  rw [codeLines_renderDeclarations options hxs, codeLines_renderDeclarations options hys] at hcode
  have hinjective : Function.Injective String.toList := fun _ _ => String.toList_injective
  have hnames : ∀ {declarations : List Declaration},
      (∀ declaration ∈ declarations, declaration.Writable) →
      ∀ outline ∈ declarations.map Declaration.outline, isIdentifier outline.name = true := by
    intro declarations hwritable outline houtline
    obtain ⟨declaration, hmem, rfl⟩ := List.mem_map.mp houtline
    rw [declaration.name_outline]
    exact (hwritable declaration hmem).name
  exact Outline.eq_of_flatMap_code_eq (hnames hxs) (hnames hys) (hinjective.list_map hcode)

/-- A record with a quoted key and an enum, both with the same documentation. -/
def documented (doc : Option String) : List Declaration :=
  [.record ⟨"Pet", doc, [⟨"first name", "string", doc, true⟩, ⟨"tag", "Tag", none, false⟩]⟩,
    .enumeration ⟨"Tag", doc, [⟨"on", .text "on"⟩, ⟨"_1", .number (.integer 1)⟩]⟩]

theorem writable_documented (doc : Option String) :
    ∀ declaration ∈ documented doc, declaration.Writable := by
  intro declaration h
  rcases List.mem_cons.mp h with rfl | h
  · refine ⟨(by decide : isIdentifier "Pet" = true), fun record hrecord => ?_⟩
    obtain rfl := Option.mem_some.mp hrecord
    simp
  · obtain rfl := List.mem_singleton.mp h
    exact ⟨(by decide : isIdentifier "Tag" = true), fun record hrecord => by cases hrecord⟩

/-- Documentation that differs in its first line feed is written alike, so the outlines agree. -/
theorem outline_eq_of_leading_break :
    (∀ declaration ∈ documented (some "*/ type"), declaration.Writable) ∧
      (∀ declaration ∈ documented (some "\n*/ type"), declaration.Writable) ∧
      renderDeclarations .standard (documented (some "*/ type")) =
        renderDeclarations .standard (documented (some "\n*/ type")) ∧
      (documented (some "*/ type")).map Declaration.outline =
        (documented (some "\n*/ type")).map Declaration.outline := by
  have hplain := writable_documented (some "*/ type")
  have hbroken := writable_documented (some "\n*/ type")
  have htext : renderDeclarations .standard (documented (some "*/ type")) =
      renderDeclarations .standard (documented (some "\n*/ type")) := by decide +kernel
  exact ⟨hplain, hbroken, htext,
    outline_eq_of_renderDeclarations_eq .standard hplain hbroken htext⟩

end TypeScript

end SchemaTypes
