import SchemaTypes.Proofs.Code.Comments
import SchemaTypes.Proofs.TypeScript.Rows

/-!
# Documentation in a file

The documentation of a statement and of its members stands in comments, on rows of their own. Rows
without documentation are the same rows with these left out, so the text of declarations is the text
of the declarations without documentation, with comments put in.

## Main definitions

* `TypeScript.Silent`: documentation that makes no comment
* `TypeScript.Declaration.undocumented`: a declaration without documentation

## Main results

* `TypeScript.Statement.commented_rows`: the step from the declarations behind a statement to those
  from the statement on
* `TypeScript.commented_renderDeclarations`: documentation puts comments into a text
-/

namespace SchemaTypes

namespace TypeScript

open Code

/-! ### Declarations without documentation -/

/-- The member with a text that shows nothing. -/
def RecordMember.undocumented (member : RecordMember) : RecordMember :=
  { member with doc := some "\n" }

/-- The declaration without documentation. What is left in a record and in its members is a text
that shows nothing. -/
def Declaration.undocumented : Declaration → Declaration
  | enumeration declaration => .enumeration { declaration with doc := none }
  | record declaration =>
    .record
      { declaration with
        doc := some "\n"
        members := declaration.members.map RecordMember.undocumented }

/-- The documentation makes no comment. -/
def Silent (doc : Option String) : Prop :=
  ∀ level, docRows level doc = []

theorem silent_none : Silent none := fun _ => rfl

theorem silent_break : Silent (some "\n") := fun _ => rfl

namespace Declaration

theorem head_undocumented (exported : Bool) (declaration : Declaration) :
    declaration.undocumented.statement.head exported = declaration.statement.head exported := by
  cases declaration <;> rfl

theorem texts_undocumented (declaration : Declaration) :
    declaration.undocumented.statement.lines.map MemberLine.text =
      declaration.statement.lines.map MemberLine.text := by
  cases declaration with
  | enumeration declaration => rfl
  | record declaration =>
    simp only [undocumented, statement, Statement.lines, List.map_map]
    rfl

theorem silent_undocumented (declaration : Declaration) :
    Silent declaration.undocumented.statement.doc := by
  cases declaration with
  | enumeration declaration => exact silent_none
  | record declaration => exact silent_break

theorem silent_lines_undocumented (declaration : Declaration) :
    ∀ line ∈ declaration.undocumented.statement.lines, Silent line.doc := by
  cases declaration with
  | enumeration declaration =>
    intro line hline
    obtain ⟨member, -, rfl⟩ := List.mem_map.mp hline
    exact silent_none
  | record declaration =>
    simp only [undocumented, statement, Statement.lines, List.map_map]
    intro line hline
    obtain ⟨member, -, rfl⟩ := List.mem_map.mp hline
    exact silent_break

end Declaration

/-! ### Rows with and without documentation -/

/-- The rows of members without documentation are their texts. -/
theorem memberRows_of_silent (level : Nat) {members : List MemberLine}
    (h : ∀ member ∈ members, Silent member.doc) :
    memberRows level members = (members.map MemberLine.text).map (.line level) := by
  induction members with
  | nil => rfl
  | cons member rest ih =>
    obtain ⟨hmember, hrest⟩ := List.forall_mem_cons.mp h
    rw [memberRows, List.flatMap_cons, hmember, ← memberRows, ih hrest]
    rfl

section Commented

variable {indent : Indent} {bare full : List Row}
  (h : Commented (layout indent bare) (layout indent full))

include h

theorem commented_docRows (level : Nat) (doc : Option String) :
    Commented (layout indent bare) (layout indent (docRows level doc ++ full)) := by
  cases doc with
  | none => exact h
  | some text =>
    simpa [docRows] using h.comment_rows level text

theorem commented_memberRows (level : Nat) (members : List MemberLine) :
    Commented (layout indent ((members.map MemberLine.text).map (.line level) ++ bare))
      (layout indent (memberRows level members ++ full)) := by
  induction members with
  | nil => exact h
  | cons member rest ih =>
    have hrow := commented_docRows (ih.row (.line level member.text)) level member.doc
    simpa [memberRows] using hrow

/-- **The step.** A statement without documentation goes in front of one text as the statement goes
in front of the other. -/
theorem Statement.commented_rows {exported : Bool} {silent statement : Statement}
    (hhead : silent.head exported = statement.head exported)
    (htexts : silent.lines.map MemberLine.text = statement.lines.map MemberLine.text)
    (hdoc : Silent silent.doc) (hdocs : ∀ line ∈ silent.lines, Silent line.doc) :
    Commented (layout indent (silent.rows exported ++ bare))
      (layout indent (statement.rows exported ++ full)) := by
  have hempty : silent.lines.isEmpty = statement.lines.isEmpty := by
    simpa using congrArg List.isEmpty htexts
  rw [rows, rows, hdoc, List.nil_append, List.append_assoc, bodyRows, bodyRows, hhead, hempty,
    memberRows_of_silent 1 hdocs, htexts, List.cons_append, List.cons_append]
  refine commented_docRows (.row _ ?_) 0 statement.doc
  split
  · exact h
  · rw [List.append_assoc, List.append_assoc]
    exact commented_memberRows (h.row _) 1 statement.lines

end Commented

/-- The declarations of a run and those without documentation. -/
theorem commented_declarationRows (indent : Indent) (exported : Bool)
    (declarations : List Declaration) :
    Commented
      (layout indent (declarationRows exported (declarations.map Declaration.undocumented)))
      (layout indent (declarationRows exported declarations)) := by
  have hstep : ∀ {bare full : List Row} (declaration : Declaration),
      Commented (layout indent bare) (layout indent full) →
      Commented (layout indent (declaration.undocumented.statement.rows exported ++ bare))
        (layout indent (declaration.statement.rows exported ++ full)) :=
    fun declaration h =>
      Statement.commented_rows h (declaration.head_undocumented exported)
        declaration.texts_undocumented declaration.silent_undocumented
        declaration.silent_lines_undocumented
  induction declarations with
  | nil => exact .refl _
  | cons declaration rest ih =>
    cases rest with
    | nil =>
      have hlast := hstep declaration (.refl (layout indent []))
      simpa [declarationRows] using hlast
    | cons next rest =>
      have hnext := hstep declaration (ih.row .blank)
      simpa [declarationRows, List.intercalate_cons_cons] using hnext

/-- **Documentation puts comments into a text**, each at the start of a line, and does nothing
else. -/
theorem commented_renderDeclarations (options : RenderOptions) (declarations : List Declaration) :
    Commented (renderDeclarations options (declarations.map Declaration.undocumented))
      (renderDeclarations options declarations) := by
  rw [renderDeclarations_eq, renderDeclarations_eq, List.isEmpty_map]
  exact (commented_declarationRows options.indent options.exported declarations).rows _

end TypeScript

end SchemaTypes
