import SchemaTypes.Proofs.Json.Agreement
import SchemaTypes.Schema.Parts

/-!
# Sources that agree

A schema object is filled from sources, each of which has been read in every form. If a source in a
text agrees with another source in every form, a clause that is filled from the one agrees with the
clause that is filled from the other. So do whole schema objects, whether they are written as
objects or as lists, and lists and maps of them.

## Main definitions

* `Schema.Forms.Agree`: two sources that agree in every form
* `Schema.Part.Agrees`, `Schema.EntryAgrees`: a part of a text and a source, without and with a key

## Main results

* `Schema.Forms.Agree.fill`: a clause that is filled from sources that agree
* `Schema.agrees_readEntries`, `Schema.agrees_readList`: schema objects
* `Schema.agrees_schemas`, `Schema.agrees_schemaMap`: lists and maps of schema objects
-/

namespace SchemaTypes

namespace Schema

open Json

/-! ### Clauses -/

namespace Forms

/-- A source in a text agrees with another source in every form. -/
structure Agree (deep : Prop) (forms : Forms Fault) (source : Forms Cause) : Prop where
  isNull : forms.isNull = source.isNull
  value : Agrees deep forms.value source.value
  text : Agrees deep forms.text source.text
  truth : Agrees deep forms.truth source.truth
  values : Agrees deep forms.values source.values
  additional : Agrees deep forms.additional source.additional
  schema : Agrees deep forms.schema source.schema
  schemas : Agrees deep forms.schemas source.schemas
  schemaMap : Agrees deep forms.schemaMap source.schemaMap

namespace Agree

variable {deep later : Prop} {forms : Forms Fault} {source : Forms Cause}

theorem mono (h : forms.Agree deep source) (himp : deep → later) : forms.Agree later source where
  isNull := h.isNull
  value := h.value.mono himp
  text := h.text.mono himp
  truth := h.truth.mono himp
  values := h.values.mono himp
  additional := h.additional.mono himp
  schema := h.schema.mono himp
  schemas := h.schemas.mono himp
  schemaMap := h.schemaMap.mono himp

theorem optional {α : Type} {form : Except Fault α} {other : Except Cause α}
    (h : forms.Agree deep source) (hform : Agrees deep form other) :
    Agrees deep (forms.optional form) (source.optional other) := by
  rw [Forms.optional, Forms.optional, h.isNull]
  split
  · exact .same none
  · exact hform.map some

/-- **A clause that is filled from sources that agree.** -/
theorem fill (h : forms.Agree deep source) (clauses : Clauses) (clause : Clause) :
    Agrees deep (clauses.fill clause forms) (clauses.fill clause source) := by
  cases clause with
  | description => exact (h.optional h.text).map _
  | sample => exact (h.optional h.value).map _
  | declaredType => exact (h.optional h.value).map _
  | properties => exact (h.optional h.schemaMap).map _
  | allOf => exact (h.optional h.schemas).map _
  | additionalProperties => exact (h.optional h.additional).map _
  | items => exact (h.optional h.schema).map _
  | values => exact (h.optional h.values).map _
  | reference => exact (h.optional h.text).map _
  | nullable => exact (h.optional h.truth).map _

end Agree

end Forms

/-! ### Schema objects -/

/-- A part of a text and the source that it is compared with. -/
structure Part.Agrees (deep : Prop) (part : Part) (source : Forms Cause) : Prop where
  check : part.tree.check = .ok ()
  forms : part.forms.Agree deep source

theorem Part.Agrees.mono {deep later : Prop} {part : Part} {source : Forms Cause}
    (h : part.Agrees deep source) (himp : deep → later) : part.Agrees later source :=
  ⟨h.check, h.forms.mono himp⟩

/-- A keyed part of a text and the keyed source that it is compared with. -/
structure EntryAgrees (deep : Prop) (entry : Key × Part) (source : String × Forms Cause) :
    Prop where
  key : entry.1.reading = .ok source.1
  part : entry.2.Agrees deep source.2

section Records

variable {deep : Prop}

/-- Schema objects that are written as objects. -/
theorem agrees_readEntries {entries : List (Key × Part)} {sources : List (String × Forms Cause)}
    (h : List.Forall₂ (EntryAgrees deep) entries sources) (seen : List Clause) (clauses : Clauses)
    (first : Bool) (stop : Nat) :
    Agrees deep (schemaRecord.readEntries seen clauses first (.closed stop) entries)
      (fillEntries seen clauses sources) := by
  induction h generalizing seen clauses first with
  | nil => exact .same clauses
  | @cons entry source entries sources hentry hrest ih =>
    obtain ⟨key, part⟩ := entry
    obtain ⟨name, source⟩ := source
    obtain ⟨hname, hcheck, hforms⟩ := hentry
    dsimp only at hname hcheck hforms
    rw [fillEntries]
    cases hclause : Clause.ofKey? name with
    | none =>
      rw [Record.readEntries_skip hname hclause]
      exact hcheck ▸ ih seen clauses false
    | some clause =>
      by_cases hseen : clause ∈ seen
      · rw [Record.readEntries_again hname hclause hseen]
        dsimp only
        rw [if_pos hseen]
        exact .refused _ (by simp [Record.repeated])
      · rw [Record.readEntries_fill hname hclause hseen]
        dsimp only
        rw [if_neg hseen]
        exact (hforms.fill clauses clause).bind fun filled => ih (clause :: seen) filled false

/-- Schema objects that are written as lists, with an item for each of the fields left. -/
theorem agrees_readItems {parts : List Part} {sources : List (Forms Cause)}
    (h : List.Forall₂ (Part.Agrees deep) parts sources) (clauses : Clauses) (fields : List Clause)
    (stop : Nat) (cause : Cause) :
    Agrees deep (schemaRecord.readItems clauses (.closed stop) fields parts)
      (fillItems clauses fields sources >>= fun filled =>
        if sources.length ≤ fields.length then .ok filled else .error cause) := by
  induction fields generalizing clauses parts sources with
  | nil =>
    cases h with
    | nil => exact .same clauses
    | cons hpart hrest => exact .refused cause (by simp)
  | cons field fields ih =>
    cases h with
    | nil => exact .refused _ (by simp [Record.tooShort])
    | cons hpart hrest =>
      rw [Record.readItems, fillItems, bind_assoc]
      simp only [List.length_cons, Nat.add_le_add_iff_right]
      exact (hpart.forms.fill clauses field).bind fun filled => ih hrest filled

theorem agrees_readList {parts : List Part} {sources : List (Forms Cause)}
    (h : List.Forall₂ (Part.Agrees deep) parts sources) (stop : Nat) :
    Agrees deep (schemaRecord.readList (.closed stop) parts) (fillList sources) :=
  agrees_readItems h .empty Clause.all stop _

theorem agrees_schemas {parts : List Part} {sources : List (Forms Cause)}
    (h : List.Forall₂ (Part.Agrees deep) parts sources) (stop : Nat) :
    Agrees deep (Part.schemas (.closed stop) parts)
      (sources.mapM fun source => source.schema) := by
  rw [← bind_pure (sources.mapM fun source => source.schema)]
  exact (Agrees.mapM (h.imp fun part source hpart => hpart.forms.schema)).bind fun read =>
    .same read

theorem agrees_schemaMap {entries : List (Key × Part)} {sources : List (String × Forms Cause)}
    (h : List.Forall₂ (EntryAgrees deep) entries sources) (stop : Nat) :
    Agrees deep (Part.schemaMap (.closed stop) entries)
      ((schemaEntries sources).map Entries.collect) := by
  refine Agrees.bind_map (.mapM (h.imp fun entry source hentry => ?_)) fun read => rfl
  rw [hentry.key]
  exact hentry.part.forms.schema.bind_map fun schema => rfl

end Records

end Schema

end SchemaTypes
