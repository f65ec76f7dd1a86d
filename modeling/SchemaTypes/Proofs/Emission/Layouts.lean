import SchemaTypes.Proofs.Emission.Rewriting
import SchemaTypes.Proofs.Schema.Reading
import Mathlib

/-!
# The two layouts of a document

A Swagger 2 document holds its definitions at the top and refers to them there; an OpenAPI 3
document holds them among its components and refers to them there. A reference counts by the name
that it ends with. So neither where the definitions stand nor where the references point has a part
in the code that is generated.

## Main definitions

* `Emission.relocate`: a reference that points among the components

## Main results

* `Emission.follows_of_keepsNames`: a rewriting of references leaves every declaration
* `Emission.generate_layouts`: the two layouts give the same code
-/

namespace SchemaTypes

namespace Schema

/-- A path that ends with a slash has no part in a bare name. -/
theorem bareName_append {path : List Char} (h : path.getLast? = some '/') (name : List Char) :
    bareName (String.ofList (path ++ name)) = bareName (String.ofList name) := by
  obtain ⟨front, rfl⟩ := List.getLast?_eq_some_iff.mp h
  have hname : name.splitOn '/' ≠ [] := List.splitOn_ne_nil '/' name
  rw [bareName_eq, bareName_eq, lastSegment, lastSegment, String.toList_ofList,
    String.toList_ofList, ← List.append_cons, List.splitOn_append_cons_self,
    List.getLastD_eq_getLast?, List.getLast?_append_of_ne_nil _ hname,
    ← List.getLastD_eq_getLast?]

end Schema

namespace Emission

open Schema TypeScript

/-! ### References -/

/-- The path in front of a name among the definitions at the top of a document. -/
def swaggerPath : String := "#/definitions/"

/-- The path in front of a name among the components of a document. -/
def openApiPath : String := "#/components/schemas/"

/-- A reference that points among the components, if it pointed to the top. -/
def relocate (path : String) : String :=
  match path.toList.dropPrefix? swaggerPath.toList with
  | some name => String.ofList (openApiPath.toList ++ name)
  | none => path

example : relocate "#/definitions/Pet" = "#/components/schemas/Pet" := by decide

/-- The rewriting that has every reference point among the components. -/
def relocating : Rewriting where
  description := id
  sample := id
  reference := relocate

theorem keepsNames_relocating : relocating.KeepsNames := by
  intro path
  show bareName (relocate path) = bareName path
  rw [relocate]
  split
  · next name hname =>
    obtain ⟨start, hpath, hstart⟩ := List.dropPrefix?_eq_some_iff.mp hname
    obtain rfl := eq_of_beq hstart
    have hfrom : path = String.ofList (swaggerPath.toList ++ name) := by
      rw [← hpath, String.ofList_toList]
    rw [hfrom, bareName_append (by decide), bareName_append (by decide)]
  · rfl

/-! ### Declarations -/

theorem describe_rewrite {change : Rewriting} (hdescription : change.description = id)
    (hsample : change.sample = id) (node : Node) :
    describe (node.rewrite change) = describe node := by
  rw [describe, describe, Node.description_rewrite, Node.sample_rewrite, Node.type_rewrite,
    hdescription, hsample]
  rfl

/-- **A rewriting of references** that keeps the names at their ends leaves every declaration
alone. -/
theorem follows_of_keepsNames {change : Rewriting} (h : change.KeepsNames)
    (hdescription : change.description = id) (hsample : change.sample = id) :
    Follows change id where
  keepsNames := h
  record name definition := by
    have hmembers : ((memberSource definition).map (Node.rewriteEntry change)).map
        (fun entry => memberOf name entry.1 entry.2) =
        (memberSource definition).map fun entry => memberOf name entry.1 entry.2 := by
      rw [List.map_map]
      refine List.map_congr_left fun entry _ => ?_
      show memberOf name entry.1 (entry.2.rewrite change) = memberOf name entry.1 entry.2
      rw [memberOf, memberOf, memberType_rewrite h, describe_rewrite hdescription hsample,
        Node.nullable_rewrite]
    rw [recordOf, recordOf, memberSource_rewrite, hmembers, describe_rewrite hdescription hsample]
    rfl
  enumeration name node := by
    rw [Context.enumOf, Context.enumOf, Node.description_rewrite, Node.enumValues?_rewrite,
      hdescription]
    rfl

theorem generate_rewrite {change : Rewriting} (h : Follows change id) (document : Document)
    (names : List String) (options : RenderOptions) :
    generate (document.rewrite change) names options = generate document names options := by
  rw [generate, generate, run, run, Document.select_rewrite]
  cases document.select names with
  | error missing => rfl
  | ok selected =>
    show Except.ok ((emitAll (selected.map (Node.rewriteEntry change))).render options) =
      Except.ok ((emitAll selected).render options)
    rw [emitAll_rewrite h, Context.relabel, List.map_id]

/-- **The two layouts give the same code.** Definitions that stand at the top or among the
components are the same document, or cannot be read in either place; and a document whose references
point among the components instead of the top gives the same code. -/
theorem generate_layouts :
    (∀ (file : String) (text : List Char) (value : Json.Value),
      Json.Value.ofText text = .ok value → WithinDepth (swaggerText text) →
      WithinDepth (openApiText text) →
        (∃ document, Document.ofText file (swaggerText text) = .ok document ∧
          Document.ofText file (openApiText text) = .ok document) ∨
        (∃ failure, Document.ofText file (swaggerText text) = .error failure) ∧
          ∃ failure, Document.ofText file (openApiText text) = .error failure) ∧
      ∀ (document : Document) (names : List String) (options : RenderOptions),
        generate (document.rewrite relocating) names options =
          generate document names options :=
  ⟨fun file _ _ hread hswagger hopen => Document.ofText_layouts file hread hswagger hopen,
    generate_rewrite (follows_of_keepsNames keepsNames_relocating rfl rfl)⟩

/-- Definitions of which one refers to another, in a property and beside an enum. -/
def petText : List Char :=
  ("\x7b\"Pet\": \x7b\"properties\": " ++
    "\x7b\"tag\": \x7b\"$ref\": \"#/definitions/Tag\"\x7d\x7d\x7d, " ++
    "\"Tag\": \x7b\"enum\": [\"a\"], \"$ref\": \"#/definitions/Pet\"\x7d\x7d").toList

def petValue : Json.Value :=
  .object
    [("Pet", .object
      [("properties", .object [("tag", .object [("$ref", .text "#/definitions/Tag")])])]),
     ("Tag", .object
      [("enum", .array [.text "a"]), ("$ref", .text "#/definitions/Pet")])]

/-- The document of the definitions, whose references start with a path. -/
def petDocument (path : String) : Document where
  definitions := Node.ofEntries
    [("Pet", { properties := some [("tag", { reference := some (path ++ "Tag") })] }),
     ("Tag", { values := some [.text "a"], reference := some (path ++ "Pet") })]

/-- The pets read the same in both layouts, and their references can point to either place. -/
theorem generate_layouts_pet :
    Json.Value.ofText petText = .ok petValue ∧ WithinDepth (swaggerText petText) ∧
      WithinDepth (openApiText petText) ∧
      Document.ofText "spec.json" (openApiText petText) = .ok (petDocument swaggerPath) ∧
      generate (petDocument openApiPath) [] .standard =
        generate (petDocument swaggerPath) [] .standard := by
  have hwritten : Json.written? petText = some petValue := by cbv
  have hread : Json.Value.ofText petText = .ok petValue := by cbv
  have hwrites := Json.writes_of_written? hwritten
  have hswagger := withinDepth_swagger hwrites (by decide)
  have hopen := withinDepth_openApi hwrites (by decide)
  refine ⟨hread, hswagger, hopen, ?_, ?_⟩
  · have hfirst : Document.ofText "spec.json" (swaggerText petText) =
        .ok (petDocument swaggerPath) := by cbv
    rcases generate_layouts.1 "spec.json" petText petValue hread hswagger hopen with
      ⟨document, hdocument, hsecond⟩ | ⟨⟨failure, hfailure⟩, -⟩
    · rw [hsecond, ← hdocument, hfirst]
    · rw [hfirst] at hfailure
      cases hfailure
  · have hrelocated : (petDocument swaggerPath).rewrite relocating = petDocument openApiPath := by
      cbv
    rw [← hrelocated]
    exact generate_layouts.2 (petDocument swaggerPath) [] .standard

end Emission

end SchemaTypes
