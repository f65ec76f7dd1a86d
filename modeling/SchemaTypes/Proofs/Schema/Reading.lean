import SchemaTypes.Proofs.Json.Machine
import SchemaTypes.Proofs.Schema.Written
import Mathlib

/-!
# Documents that hold a text

A document holds its definitions in one of two places: at the top, or among its components. A text
that stands in either place is read in place, and what it is read as depends on the value alone that
it writes. So the two layouts give the same definitions, and a schema object that is read in place
is the schema object that its value holds.

## Main definitions

* `Schema.swaggerText`, `Schema.openApiText`: the two layouts of a document
* `Schema.WithinDepth`: a document that does not nest too deep to be read

## Main results

* `Schema.agrees_swagger`, `Schema.agrees_openApi`: what the definitions of a document are
* `Schema.withinDepth_swagger`, `Schema.withinDepth_openApi`: how deep definitions may nest
* `Schema.Document.ofText_layouts`: the two layouts give the same document
* `Schema.Document.ofText_iff_ofValue`: schema objects that are read in place, or from a value
-/

namespace SchemaTypes

namespace Schema

open Json

/-! ### Layouts -/

/-- The text of a document that holds definitions at the top. -/
def swaggerText (definitions : List Char) : List Char :=
  entryText "definitions" definitions

/-- The text of a document that holds definitions among its components. -/
def openApiText (definitions : List Char) : List Char :=
  entryText "components" (entryText "schemas" definitions)

example : openApiText ['1'] = "\x7b\"components\":\x7b\"schemas\":1\x7d\x7d".toList := by
  decide

/-- A document does not nest too deep to be read. -/
def WithinDepth (text : List Char) : Prop :=
  ∀ byte, DefinitionSources.ofText text ≠ .error ⟨.tooDeep, byte⟩

/-! ### Reading in place -/

section Entry

variable {φ σ : Type} [DecidableEq φ] {record : Record φ σ Part} {name : String} {field : φ}
  {value : Value}

theorem readRecord_entry {tree : Tree} (h : tree.Writes (.object [(name, value)]))
    (hfield : record.ofKey? name = some field) (room : Nat) :
    ∃ start node, node.Writes value ∧ readRecord record room tree =
      inside room start (record.fill record.empty field (Part.ofTree (room - 1) node)) := by
  obtain ⟨start, stop, key, node, rfl, hkey, hnode⟩ := h.exists_entry
  refine ⟨start, node, hnode, ?_⟩
  rw [readRecord, Part.ofEntries, Part.ofEntries, Record.readObject_singleton hkey hfield]

theorem DefinitionSources.ofText_entry {text : List Char} {field : DocumentField}
    (h : Writes text value) (hfield : documentRecord.ofKey? name = some field) :
    ∃ node, node.Writes value ∧ DefinitionSources.ofText (entryText name text) =
      documentRecord.fill documentRecord.empty field (Part.ofTree (maxDepth - 1) node) := by
  obtain ⟨tree, byte, htree, hwrites⟩ := (h.entry name).ofText
  obtain ⟨start, node, hnode, hread⟩ := readRecord_entry hwrites hfield maxDepth
  refine ⟨node, hnode, ?_⟩
  rw [DefinitionSources.ofText, htree, TextTree.close, hread]
  cases documentRecord.fill documentRecord.empty field (Part.ofTree (maxDepth - 1) node) <;> rfl

end Entry

/-- The definitions that a value holds, if it is not `null`. -/
def definitionsOf (written : Value) : Except Cause (Option ClauseMap) :=
  (Forms.ofWritten written).optional (Forms.ofWritten written).schemaMap

variable {text : List Char} {written : Value}

/-- **The definitions at the top of a document.** -/
theorem agrees_swagger (h : Writes text written) :
    Agrees (maxDepth - 1 < written.depth) (DefinitionSources.ofText (swaggerText text))
      ((definitionsOf written).map fun found => { definitions := found }) := by
  have hfield : documentRecord.ofKey? "definitions" = some .definitions := rfl
  obtain ⟨node, hnode, hread⟩ := DefinitionSources.ofText_entry h hfield
  have hforms := Part.agree_ofTree (maxDepth - 1) hnode
  rw [swaggerText, hread]
  exact (hforms.optional hforms.schemaMap).map _

/-- **The definitions among the components of a document.** -/
theorem agrees_openApi (h : Writes text written) :
    Agrees (maxDepth - 2 < written.depth) (DefinitionSources.ofText (openApiText text))
      ((definitionsOf written).map fun found => { components := some found }) := by
  have hfield : documentRecord.ofKey? "components" = some .components := rfl
  have hinner : componentRecord.ofKey? "schemas" = some .schemas := rfl
  obtain ⟨node, hnode, hread⟩ := DefinitionSources.ofText_entry (h.entry "schemas") hfield
  obtain ⟨start, schemas, hschemas, hrecord⟩ := readRecord_entry hnode hinner (maxDepth - 1)
  have hforms := Part.agree_ofTree (maxDepth - 1 - 1) hschemas
  have hnull : (Part.ofTree (maxDepth - 1) node).forms.isNull = false :=
    (Part.agree_ofTree (maxDepth - 1) hnode).isNull
  have hfound : Agrees (maxDepth - 2 < written.depth)
      (readRecord componentRecord (maxDepth - 1) (Part.ofTree (maxDepth - 1) node).tree)
      (definitionsOf written) := by
    rw [Part.tree_ofTree, hrecord]
    have hroom : 2 ≤ maxDepth := by decide
    exact ((hforms.optional hforms.schemaMap).inside start).mono fun hdeep => by omega
  rw [openApiText, hread]
  show Agrees _ ((Forms.optional _ _).map _) _
  rw [Forms.optional, if_neg (Bool.eq_false_iff.mp hnull)]
  exact hfound.map_map some _

/-- Definitions at the top may nest one level less deep than a value. -/
theorem withinDepth_swagger (h : Writes text written) (hdepth : written.depth + 1 ≤ maxDepth) :
    WithinDepth (swaggerText text) :=
  (agrees_swagger h).ne_tooDeep (by omega)

/-- Definitions among the components may nest two levels less deep than a value. -/
theorem withinDepth_openApi (h : Writes text written) (hdepth : written.depth + 2 ≤ maxDepth) :
    WithinDepth (openApiText text) :=
  (agrees_openApi h).ne_tooDeep (by omega)

/-! ### Documents -/

/-- The document whose definitions have been found. -/
def Document.ofFound (file : String) : Option ClauseMap → Except Failure Document
  | none => .error (.noDefinitions file)
  | some definitions => .ok ⟨Node.ofEntries definitions⟩

theorem Document.ofText_of_ok (file : String) {sources : DefinitionSources}
    (h : DefinitionSources.ofText text = .ok sources) :
    ofText file text = ofFound file sources.chosen := by
  rw [ofText, h]
  dsimp only
  cases sources.chosen <;> rfl

theorem Document.ofText_of_error (file : String) {fault : Fault}
    (h : DefinitionSources.ofText text = .error fault) :
    ∃ failure, ofText file text = .error failure := by
  rw [ofText, h]
  exact ⟨_, rfl⟩

/-- A document whose definitions stand in one place is made from what the place holds. -/
theorem Document.ofText_of_agrees (file : String) {deep : Prop} {document : List Char}
    {place : Option ClauseMap → DefinitionSources} (hplace : ∀ found, (place found).chosen = found)
    (h : Agrees deep (DefinitionSources.ofText document) ((definitionsOf written).map place))
    (hdepth : WithinDepth document) :
    (∀ found, definitionsOf written = .ok found → ofText file document = ofFound file found) ∧
      ∀ cause, definitionsOf written = .error cause →
        ∃ failure, ofText file document = .error failure := by
  rcases h.cases_of_ne hdepth with ⟨sources, hread, hmade⟩ | ⟨⟨fault, hread⟩, cause, hmade⟩
  · obtain ⟨read, hfound, rfl⟩ := map_eq_ok.mp hmade
    refine ⟨fun found hok => ?_, fun cause herror => nomatch hfound.symm.trans herror⟩
    obtain rfl := Except.ok.inj (hfound.symm.trans hok)
    rw [ofText_of_ok file hread, hplace]
  · refine ⟨fun found hok => ?_, fun _ _ => ofText_of_error file hread⟩
    rw [hok] at hmade
    cases hmade

/-- **The two layouts give the same document**, or neither of them gives one. -/
theorem Document.ofText_layouts (file : String) {value : Value}
    (hread : Value.ofText text = .ok value) (hswagger : WithinDepth (swaggerText text))
    (hopen : WithinDepth (openApiText text)) :
    (∃ document, ofText file (swaggerText text) = .ok document ∧
      ofText file (openApiText text) = .ok document) ∨
    (∃ failure, ofText file (swaggerText text) = .error failure) ∧
      ∃ failure, ofText file (openApiText text) = .error failure := by
  obtain ⟨written, hwritten, -⟩ := exists_written_of_ofText hread
  have hwrites := writes_of_written? hwritten
  have htop : ∀ found, DefinitionSources.chosen { definitions := found } = found :=
    fun found => Option.or_none
  have hbelow : ∀ found, DefinitionSources.chosen { components := some found } = found :=
    fun found => rfl
  obtain ⟨hsame, hfails⟩ := ofText_of_agrees file htop (agrees_swagger hwrites) hswagger
  obtain ⟨hsame', hfails'⟩ := ofText_of_agrees file hbelow (agrees_openApi hwrites) hopen
  cases hdefinitions : definitionsOf written with
  | error cause => exact .inr ⟨hfails cause hdefinitions, hfails' cause hdefinitions⟩
  | ok found =>
    rw [hsame found hdefinitions, hsame' found hdefinitions]
    cases found with
    | none => exact .inr ⟨⟨_, rfl⟩, _, rfl⟩
    | some definitions => exact .inl ⟨_, rfl, rfl⟩

/-! ### Schema objects -/

theorem definitionsOf_singleton (name : String) (written : Value) :
    definitionsOf (.object [(name, written)]) =
      (Forms.ofWritten written).schema.map fun schema => some [(name, schema)] := by
  have hentries : schemaEntries [(name, Forms.ofWritten written)] =
      (Forms.ofWritten written).schema.map fun schema => [(name, schema)] := by
    rw [schemaEntries, List.mapM_cons]
    cases (Forms.ofWritten written).schema <;> rfl
  rw [definitionsOf, Forms.ofWritten]
  dsimp only
  rw [Forms.ofWrittenEntries, Forms.ofWrittenEntries, hentries]
  cases (Forms.ofWritten written).schema <;> rfl

/-- **A schema object that is read in place** is the one that its value holds: a definition whose
text repeats no key is read if and only if its value is a schema object, and it is the node of that
schema object. -/
theorem Document.ofText_iff_ofValue (file name : String) {value : Value}
    (hread : Value.ofText text = .ok value) (hkeys : RepeatsNoKey text)
    (hdepth : WithinDepth (swaggerText (entryText name text))) :
    ((∃ document, ofText file (swaggerText (entryText name text)) = .ok document) ↔
        ∃ clauses, Clauses.ofValue value = .ok clauses) ∧
      ∀ document clauses, ofText file (swaggerText (entryText name text)) = .ok document →
        Clauses.ofValue value = .ok clauses →
        document.definitions = [(name, Node.ofClauses clauses)] := by
  obtain ⟨written, hwritten, rfl⟩ := exists_written_of_ofText hread
  have hwrites := (writes_of_written? hwritten).entry name
  have htop : ∀ found, DefinitionSources.chosen { definitions := found } = found :=
    fun found => Option.or_none
  obtain ⟨hsame, hfails⟩ := ofText_of_agrees file htop (agrees_swagger hwrites) hdepth
  have hdistinct := hkeys written hwritten
  rw [definitionsOf_singleton, Forms.ofWritten_eq_ofValue hdistinct] at hsame hfails
  rw [Value.collected_eq_self hdistinct, Clauses.ofValue]
  cases hclauses : (Forms.ofValue written).schema with
  | error cause =>
    obtain ⟨failure, hfailure⟩ := hfails cause (congrArg (Except.map _) hclauses)
    rw [hfailure]
    refine ⟨⟨?_, ?_⟩, ?_⟩
    · rintro ⟨document, hdocument⟩
      cases hdocument
    · rintro ⟨clauses, hother⟩
      cases hother
    · intro document clauses hdocument
      cases hdocument
  | ok clauses =>
    rw [hsame _ (congrArg (Except.map _) hclauses)]
    refine ⟨⟨fun _ => ⟨clauses, rfl⟩, fun _ => ⟨_, rfl⟩⟩, ?_⟩
    intro document other hdocument hother
    rw [← Except.ok.inj hdocument, ← Except.ok.inj hother]
    rfl

/-- A schema object with a key that no clause has, an entry that is no schema object and nodes in
three of its clauses. -/
def boxText : List Char :=
  ("\x7b\"x-nullable\": true, \"note\": [[]], " ++
    "\"properties\": \x7b\"a\": \x7b\"$ref\": \"B\"\x7d\x7d, " ++
    "\"additionalProperties\": \x7b\"b\": \x7b\"enum\": [\"u\"]\x7d, \"c\": null\x7d\x7d").toList

def boxValue : Value :=
  .object
    [("x-nullable", .boolean true), ("note", .array [.array []]),
     ("properties", .object [("a", .object [("$ref", .text "B")])]),
     ("additionalProperties",
      .object [("b", .object [("enum", .array [.text "u"])]), ("c", .null)])]

def boxClauses : Clauses where
  nullable := some true
  properties := some [("a", { reference := some "B" })]
  additional := some (.entries [("b", { values := some [.text "u"] })])

/-- The box is a definition of a document as it is a value. -/
theorem Document.ofText_iff_ofValue_box :
    Value.ofText boxText = .ok boxValue ∧ RepeatsNoKey boxText ∧
      WithinDepth (swaggerText (entryText "Box" boxText)) ∧
      ∃ document, ofText "spec.json" (swaggerText (entryText "Box" boxText)) = .ok document ∧
        document.definitions = [("Box", Node.ofClauses boxClauses)] := by
  have hwritten : written? boxText = some boxValue := by cbv
  have hread : Value.ofText boxText = .ok boxValue := by cbv
  have hclauses : Clauses.ofValue boxValue = .ok boxClauses := by cbv
  have hdistinct : boxValue.DistinctKeys := by
    simp [boxValue, Value.DistinctKeys, Value.DistinctItems, Value.DistinctEntries]
  have hkeys : RepeatsNoKey boxText := by
    intro written h
    obtain rfl := Option.some.inj (hwritten.symm.trans h)
    exact hdistinct
  have hdepth : WithinDepth (swaggerText (entryText "Box" boxText)) :=
    withinDepth_swagger ((writes_of_written? hwritten).entry "Box") (by decide)
  refine ⟨hread, hkeys, hdepth, ?_⟩
  obtain ⟨hiff, hnode⟩ := ofText_iff_ofValue "spec.json" "Box" hread hkeys hdepth
  obtain ⟨document, hdocument⟩ := hiff.mpr ⟨boxClauses, hclauses⟩
  exact ⟨document, hdocument, hnode document boxClauses hdocument hclauses⟩

end Schema

end SchemaTypes
