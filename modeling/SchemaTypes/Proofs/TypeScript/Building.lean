import SchemaTypes.Emission.Context
import SchemaTypes.Proofs.Code.Comments
import SchemaTypes.Proofs.TypeScript.Header
import Mathlib.Data.List.Basic
import Mathlib.Data.List.Induction

/-!
# Files put together step by step

A file is put together by steps in any order. Two of them are settings, and they count at different
times: the header can be set at any time and the last one holds for the whole file, while the mark
of exports is read when a declaration is added and holds for what comes later. Rendering then writes
everything through one buffer, whose level each declaration has to leave as it was.

Here a file is told by its steps alone: its header is the last one that was set, and each of its
declarations was added by a step, with the mark of exports set by the steps before. The text of the
file is the header followed by the texts that the declarations have by themselves.

## Main definitions

* `TypeScript.Step`, `TypeScript.SourceFile.ofSteps`: steps, and the file they put together
* `TypeScript.lastHeader`, `TypeScript.isExportedAfter`: what the settings among steps come to
* `TypeScript.entries`: the declarations that steps add, each with whether it is exported
* `TypeScript.declarationText`: the text of a declaration by itself

## Main results

* `TypeScript.SourceFile.isBuiltBy_ofSteps`: what a file holds after its steps
* `TypeScript.SourceFile.render_eq_joined`: the text of a file
* `TypeScript.SourceFile.render_ofSteps`: the text of a file in terms of its steps
-/

namespace SchemaTypes

namespace TypeScript

open Code

/-! ### Steps -/

/-- A step of putting a file together. -/
inductive Step
  /-- sets the header, or clears it -/
  | setHeader (header : Option String)
  /-- settles whether the declarations that follow are exported -/
  | setExported (exported : Bool)
  | add (declaration : Declaration)
  | addAll (declarations : List Declaration)

namespace Step

/-- The header that a step sets or clears. -/
def header? : Step → Option (Option String)
  | setHeader header => some header
  | _ => none

/-- The mark of exports that a step sets. -/
def exported? : Step → Option Bool
  | setExported exported => some exported
  | _ => none

/-- The declarations that a step adds. -/
def added : Step → List Declaration
  | add declaration => [declaration]
  | addAll declarations => declarations
  | _ => []

/-- A step that adds declarations, as steps that add one each. -/
def singly : Step → List Step
  | addAll declarations => declarations.map add
  | step => [step]

end Step

/-- The header that was set last. -/
def lastHeader (steps : List Step) : Option String :=
  (steps.filterMap Step.header?).getLast?.join

/-- Whether a declaration that is added after the steps is exported: as was set last, and exported
if nothing was set. -/
def isExportedAfter (steps : List Step) : Bool :=
  (steps.filterMap Step.exported?).getLast?.getD true

/-- The declarations that steps add, in order. Whether one is exported depends on the steps before
the one that adds it. -/
def entries (steps : List Step) : List (Bool × Declaration) :=
  steps.zipIdx.flatMap fun step => step.1.added.map fun declaration =>
    (isExportedAfter (steps.take step.2), declaration)

theorem lastHeader_concat (steps : List Step) (step : Step) :
    lastHeader (steps ++ [step]) = step.header?.getD (lastHeader steps) := by
  cases step <;> simp [lastHeader, Step.header?]

theorem isExportedAfter_concat (steps : List Step) (step : Step) :
    isExportedAfter (steps ++ [step]) = step.exported?.getD (isExportedAfter steps) := by
  cases step <;> simp [isExportedAfter, Step.exported?]

/-- One more step changes nothing for the declarations that are there. -/
theorem entries_concat (steps : List Step) (step : Step) :
    entries (steps ++ [step]) =
      entries steps ++ step.added.map fun declaration => (isExportedAfter steps, declaration) := by
  have hbefore : (steps.zipIdx.flatMap fun earlier => earlier.1.added.map fun declaration =>
      (isExportedAfter ((steps ++ [step]).take earlier.2), declaration)) = entries steps := by
    refine List.flatMap_congr fun earlier hearlier => ?_
    have hlt : earlier.2 < steps.length := (List.mem_zipIdx' hearlier).1
    rw [List.take_append_of_le_length hlt.le]
  rw [entries, List.zipIdx_append, List.flatMap_append, hbefore]
  simp

namespace SourceFile

/-- The file after a step. -/
def after (file : SourceFile) : Step → SourceFile
  | .setHeader header => file.withHeader header
  | .setExported exported => file.withExported exported
  | .add declaration => file.add declaration
  | .addAll declarations => file.addAll declarations

/-- The file that steps put together. -/
def ofSteps (steps : List Step) : SourceFile :=
  steps.foldl after new

/-- What a file holds after steps. -/
structure IsBuiltBy (file : SourceFile) (steps : List Step) : Prop where
  header : file.header = lastHeader steps
  exported : file.exported = isExportedAfter steps
  body : file.body = (entries steps).map fun entry => entry.2.statement.fragments entry.1

/-- A step adds the code of its declarations, exported or not as the file says by then. -/
theorem body_after (file : SourceFile) (step : Step) :
    (file.after step).body = file.body ++ step.added.map fun declaration =>
      declaration.statement.fragments file.exported := by
  cases step with
  | setHeader header => exact (List.append_nil _).symm
  | setExported exported => exact (List.append_nil _).symm
  | add declaration => rfl
  | addAll declarations => rw [after, addAll_eq]; rfl

theorem header_after (file : SourceFile) (step : Step) :
    (file.after step).header = step.header?.getD file.header := by
  cases step with
  | addAll declarations => rw [after, addAll_eq]; rfl
  | _ => rfl

theorem exported_after (file : SourceFile) (step : Step) :
    (file.after step).exported = step.exported?.getD file.exported := by
  cases step with
  | addAll declarations => rw [after, addAll_eq]; rfl
  | _ => rfl

/-- One more step. -/
theorem IsBuiltBy.after {file : SourceFile} {steps : List Step} (h : file.IsBuiltBy steps)
    (step : Step) : (file.after step).IsBuiltBy (steps ++ [step]) where
  header := by rw [header_after, lastHeader_concat, h.header]
  exported := by rw [exported_after, isExportedAfter_concat, h.exported]
  body := by
    rw [body_after, entries_concat, List.map_append, List.map_map, h.body, h.exported]
    rfl

theorem ofSteps_append (steps more : List Step) :
    ofSteps (steps ++ more) = more.foldl SourceFile.after (ofSteps steps) :=
  List.foldl_append

/-- **What a file holds after its steps.** -/
theorem isBuiltBy_ofSteps (steps : List Step) : (ofSteps steps).IsBuiltBy steps := by
  induction steps using List.reverseRecOn with
  | nil => exact ⟨rfl, rfl, rfl⟩
  | append_singleton steps step ih =>
    rw [ofSteps_append]
    exact ih.after step

theorem foldl_after_singly (file : SourceFile) (step : Step) :
    step.singly.foldl SourceFile.after file = file.after step := by
  cases step with
  | addAll declarations => exact List.foldl_map
  | _ => rfl

/-- Lists of declarations can be added one by one. -/
theorem ofSteps_singly (steps : List Step) :
    ofSteps (steps.flatMap Step.singly) = ofSteps steps := by
  induction steps using List.reverseRecOn with
  | nil => rfl
  | append_singleton steps step ih =>
    rw [List.flatMap_append, List.flatMap_singleton, ofSteps_append, ofSteps_append, ih,
      foldl_after_singly]
    rfl

end SourceFile

/-! ### Texts of declarations -/

/-- The text of code by itself, from level zero. -/
def codeText (indent : Indent) (fragments : List Fragment) : String :=
  ((Buffer.new indent).applyAll fragments).text

/-- The text of a declaration by itself. -/
def declarationText (indent : Indent) (exported : Bool) (declaration : Declaration) : String :=
  codeText indent (declaration.statement.fragments exported)

theorem codeText_eq (indent : Indent) (fragments : List Fragment) :
    codeText indent fragments = layout indent (rowsOf 0 fragments) := by
  rw [codeText, Buffer.applyAll_eq, Buffer.write, Buffer.new, String.empty_append]

theorem declarationText_eq (indent : Indent) (exported : Bool) (declaration : Declaration) :
    declarationText indent exported declaration =
      layout indent (declaration.statement.rows exported) := by
  rw [declarationText, codeText_eq, Statement.rowsOf_fragments]

/-- A text of whole lines that starts and ends with a line that is not empty. So an empty line in
front of it or behind it is none of its own. -/
structure IsBlock (text : String) : Prop where
  starts : ∃ c rest, text.toList = c :: rest ∧ c ≠ '\n'
  stops : ∃ front, text = front ++ "\x7d\n"

theorem layout_line_zero (indent : Indent) (front back : String) (rows : List Row) :
    layout indent (.line 0 (front ++ back) :: rows) =
      front ++ layout indent (.line 0 back :: rows) := by
  simp [layout, Row.render, Buffer.margin, String.append_assoc]

/-- The text of a declaration behind its comment and the mark of exports. -/
def bareText (indent : Indent) (declaration : Declaration) : String :=
  layout indent (bodyRows 0 (declaration.statement.head false) declaration.statement.lines)

/-- The mark of exports stands behind the comment. -/
theorem declarationText_mark (indent : Indent) (exported : Bool) (declaration : Declaration) :
    declarationText indent exported declaration =
      layout indent (docRows 0 declaration.statement.doc) ++
        (Statement.exportMark exported ++ bareText indent declaration) := by
  have hhead : declaration.statement.head exported =
      Statement.exportMark exported ++ declaration.statement.head false := by
    cases declaration <;>
      simp [Declaration.statement, Statement.head, Statement.exportMark, String.append_assoc]
  rw [declarationText_eq, Statement.rows, layout_append, bareText, bodyRows, bodyRows, hhead,
    String.append_assoc, layout_line_zero]

/-- A comment starts with its opening mark. -/
theorem layout_docRows_cases (indent : Indent) (doc : Option String) :
    layout indent (docRows 0 doc) = "" ∨
      ∃ rest, (layout indent (docRows 0 doc)).toList = '/' :: rest := by
  cases doc with
  | none => exact .inl rfl
  | some text =>
    rw [docRows, Option.toList_some, List.flatMap_singleton, commentRows]
    rcases commentLines_cases text with h | ⟨shown, -, h⟩ | ⟨lines, -, h⟩
    · rw [h]
      exact .inl rfl
    all_goals
      rw [h]
      exact .inr ⟨_, by simp [layout, Row.render, Buffer.margin]; rfl⟩

/-- The text of a statement starts with a letter. -/
theorem exists_letter_bareText (indent : Indent) (exported : Bool) (declaration : Declaration) :
    ∃ c rest, (Statement.exportMark exported ++ bareText indent declaration).toList = c :: rest ∧
      (c = 'e' ∨ c = 'i') := by
  cases exported <;> cases declaration <;>
    simp [Statement.exportMark, bareText, bodyRows, Declaration.statement, Statement.head, layout,
      Row.render, Buffer.margin]

/-- The text of a statement ends with a closing bracket on its last line. -/
theorem exists_bracket_bareText (indent : Indent) (declaration : Declaration) :
    ∃ front, bareText indent declaration = front ++ "\x7d\n" := by
  rw [bareText, bodyRows]
  split
  · next hempty =>
    refine ⟨declaration.statement.head false ++ " \x7b", ?_⟩
    rw [hempty, layout_line_zero, String.append_assoc]
    rfl
  · rw [← List.cons_append, layout_append]
    exact ⟨_, by simp [layout, Row.render, Buffer.margin]; rfl⟩

/-- **The text of a declaration is a block.** -/
theorem isBlock_declarationText (indent : Indent) (exported : Bool) (declaration : Declaration) :
    IsBlock (declarationText indent exported declaration) where
  starts := by
    rw [declarationText_mark, String.toList_append]
    obtain ⟨c, rest, hletter, hc⟩ := exists_letter_bareText indent exported declaration
    rcases layout_docRows_cases indent declaration.statement.doc with h | ⟨more, h⟩
    · refine ⟨c, rest, by rw [h, hletter]; rfl, ?_⟩
      rcases hc with rfl | rfl <;> decide
    · exact ⟨'/', _, by rw [h]; rfl, by decide⟩
  stops := by
    obtain ⟨front, hfront⟩ := exists_bracket_bareText indent declaration
    rw [declarationText_mark, hfront]
    exact ⟨_, by rw [← String.append_assoc, ← String.append_assoc]⟩

namespace SourceFile

/-! ### Texts of files -/

/-- The text of blocks of rows with an empty row between neighbours. -/
theorem layout_intercalate (indent : Indent) (blocks : List (List Row)) :
    layout indent ([Row.blank].intercalate blocks) =
      Text.joined "\n" (blocks.map (layout indent)) := by
  induction blocks with
  | nil => rfl
  | cons block rest ih =>
    cases rest with
    | nil => rw [List.intercalate_singleton]; rfl
    | cons next rest =>
      have hblank : layout indent [.blank] = "\n" := by simp [layout, Row.render]
      rw [List.intercalate_cons_cons, layout_append, layout_append, ih, hblank]
      rfl

/-- **The text of a file**: what the header puts on top, and the texts of its declarations with an
empty line between neighbours. -/
theorem render_eq_joined (file : SourceFile) (indent : Indent) :
    file.render indent =
      (file.header.elim "" fun header => topText header file.body.isEmpty) ++
        Text.joined "\n" (file.body.map (codeText indent)) := by
  have hbody : (file.withHeader none).render indent =
      Text.joined "\n" (file.body.map (codeText indent)) := by
    rw [render_eq, rows, layout_append, layout_intercalate, List.map_map]
    exact (String.empty_append.trans <| congrArg _ <| List.map_congr_left fun fragments _ =>
      (codeText_eq indent fragments).symm)
  obtain ⟨header, body, exported⟩ := file
  cases header with
  | none => exact hbody.trans String.empty_append.symm
  | some header =>
    exact (render_withHeader ⟨none, body, exported⟩ indent header).trans (congrArg _ hbody)

theorem headerLine_eq :
    headerLine = fun line => if line = [] then "//" else "// " ++ String.ofList line := by
  funext line
  cases line <;> rfl

/-- **The text of a file in terms of its steps.** On top stand the lines of the header that was set
last, each behind a comment mark, and an empty line if a declaration follows. Then come the
declarations in the order in which they were added, with an empty line between neighbours. Each has
the text that it has by itself, and is exported as was set last before it was added. Such a text
neither starts nor ends with an empty line, and the mark of exports stands between its comment and
the rest. Adding a list adds its declarations one by one. A context is rendered by setting the
header and the mark of exports before all its declarations. -/
theorem render_ofSteps (steps : List Step) (indent : Indent) :
    (ofSteps steps).render indent =
        ((lastHeader steps).elim "" fun header =>
          Text.unlines ((Text.lines header.toList).map fun line =>
              if line = [] then "//" else "// " ++ String.ofList line) ++
            if (entries steps).isEmpty then "" else "\n") ++
          Text.joined "\n" ((entries steps).map fun entry =>
            declarationText indent entry.1 entry.2) ∧
      (∀ exported declaration, IsBlock (declarationText indent exported declaration) ∧
        declarationText indent exported declaration =
          layout indent (docRows 0 declaration.statement.doc) ++
            ((if exported then "export " else "") ++ bareText indent declaration)) ∧
      ofSteps (steps.flatMap Step.singly) = ofSteps steps ∧
      ∀ (context : Emission.Context) (options : RenderOptions),
        context.render options =
          (ofSteps [.setHeader options.header, .setExported options.exported,
            .addAll context.declarations]).render options.indent := by
  refine ⟨?_, fun exported declaration => ⟨isBlock_declarationText indent exported declaration,
    declarationText_mark indent exported declaration⟩, ofSteps_singly steps, fun _ _ => rfl⟩
  have hbuilt := isBuiltBy_ofSteps steps
  rw [render_eq_joined, hbuilt.header, hbuilt.body, List.isEmpty_map, List.map_map, ← headerLine_eq]
  rfl

/-- The header counts although it comes late, and the mark of exports from where it is set. -/
example :
    (ofSteps [.setExported false, .add (.record ⟨"A", none, []⟩), .setHeader (some "note"),
      .setExported true, .add (.record ⟨"B", none, []⟩)]).render .standard =
      "// note\n\ninterface A \x7b\x7d\n\nexport interface B \x7b\x7d\n" := by
  decide

end SourceFile

end TypeScript

end SchemaTypes
