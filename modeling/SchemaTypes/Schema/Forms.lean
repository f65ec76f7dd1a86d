import SchemaTypes.Json.Fault
import SchemaTypes.Schema.Clauses

/-!
# The forms of a clause

Each clause of a schema object is read in the form that it wants: as a text, a truth value, a list
of schemas and so on. A schema object comes from the text of a document or from a JSON value. The
two sources fault in different ways and are alike in all else, so a source is held as the outcomes
of reading it in every form, and the clauses are filled from that.

## Main definitions

* `Schema.Forms`: a source, read in every form
* `Schema.Clauses.fill`: a schema object with one more clause
* `Schema.Forms.ofValue`: a JSON value as a source
* `Schema.Clauses.ofValue`: the schema object a JSON value holds
-/

namespace SchemaTypes

namespace Schema

open Json

/-- The outcomes of reading a source in every form that a clause can want, with faults of type
`ε`. -/
structure Forms (ε : Type) where
  isNull : Bool
  value : Except ε Value
  text : Except ε String
  truth : Except ε Bool
  values : Except ε (List Value)
  additional : Except ε (Additional Clauses)
  schema : Except ε Clauses
  schemas : Except ε (List Clauses)
  schemaMap : Except ε (List (String × Clauses))

namespace Forms

variable {ε α : Type}

/-- One form of a clause that may be `null`. -/
def optional (forms : Forms ε) (form : Except ε α) : Except ε (Option α) :=
  if forms.isNull then .ok none else form.map some

end Forms

/-- The schema object with one more clause, taken from a source in the form that it wants. -/
def Clauses.fill {ε : Type} (clauses : Clauses) (clause : Clause) (source : Forms ε) :
    Except ε Clauses :=
  match clause with
  | .description =>
    (source.optional source.text).map fun x => { clauses with description := x }
  | .sample => (source.optional source.value).map fun x => { clauses with sample := x }
  | .declaredType =>
    (source.optional source.value).map fun x => { clauses with declaredType := x }
  | .properties =>
    (source.optional source.schemaMap).map fun x => { clauses with properties := x }
  | .allOf => (source.optional source.schemas).map fun x => { clauses with allOf := x }
  | .additionalProperties =>
    (source.optional source.additional).map fun x => { clauses with additional := x }
  | .items => (source.optional source.schema).map fun x => { clauses with items := x }
  | .values => (source.optional source.values).map fun x => { clauses with values := x }
  | .reference => (source.optional source.text).map fun x => { clauses with reference := x }
  | .nullable => (source.optional source.truth).map fun x => { clauses with nullable := x }

/-! ### The wording of what is wanted -/

/-- What a clause that is a text wants. -/
def textWanted : String := "a string"

/-- What a clause that is a truth value wants. -/
def truthWanted : String := "a boolean"

/-- What a clause that is a list wants. -/
def listWanted : String := "a sequence"

/-- What a clause that is a map wants. -/
def mapWanted : String := "a map"

/-- What stands for a schema object. -/
def schemaWanted : String := "struct RawSchema"

/-- What the list form of a schema object wants. -/
def schemaLengthWanted : String := "struct RawSchema with 10 elements"

/-! ### From a JSON value -/

/-- How a diagnostic names a value of the wrong kind. -/
def foundValue : Value → Found
  | .null => .null
  | .boolean value => .boolean value
  | .number (.integer value) => .integer value
  | .number (.floating value) => .floating (floatFormat.render value)
  | .text value => .text value
  | .array _ => .sequence
  | .object _ => .map

/-- The cause of refusing a value. -/
def refuse {α : Type} (value : Value) (wanted : String) : Except Cause α :=
  .error (.wrongKind (foundValue value) wanted)

/-- Fills clauses from keyed sources in order. Keys that name no clause are passed over. -/
def fillEntries (seen : List Clause) (clauses : Clauses) :
    List (String × Forms Cause) → Except Cause Clauses
  | [] => .ok clauses
  | (name, source) :: rest =>
    match Clause.ofKey? name with
    | none => fillEntries seen clauses rest
    | some clause =>
      if clause ∈ seen then .error (.repeatedField clause.key)
      else do
        let filled ← clauses.fill clause source
        fillEntries (clause :: seen) filled rest

/-- Fills clauses from the sources of a list, which has one for each clause. -/
def fillItems (clauses : Clauses) : List Clause → List (Forms Cause) → Except Cause Clauses
  | [], _ => .ok clauses
  | wanted, [] => .error (.wrongLength (Clause.all.length - wanted.length) schemaLengthWanted)
  | clause :: wanted, source :: rest => do
    let filled ← clauses.fill clause source
    fillItems filled wanted rest

/-- The schema object of a list that may be too long. -/
def fillList (sources : List (Forms Cause)) : Except Cause Clauses := do
  let filled ← fillItems .empty Clause.all sources
  if sources.length ≤ Clause.all.length then .ok filled
  else .error (.wrongLength sources.length "fewer elements in array")

/-- The keyed schemas of keyed sources in order. -/
def schemaEntries {ε : Type} (entries : List (String × Forms ε)) :
    Except ε (List (String × Clauses)) :=
  entries.mapM fun entry => entry.2.schema.map fun schema => (entry.1, schema)

/-- The entries whose sources hold schema objects. -/
def acceptedEntries {ε : Type} (entries : List (String × Forms ε)) : List (String × Clauses) :=
  entries.filterMap fun entry =>
    match entry.2.schema with
    | .ok schema => some (entry.1, schema)
    | .error _ => none

namespace Forms

/-- A value as a source that only the form of any value accepts. -/
def scalar (value : Value) : Forms Cause where
  isNull := false
  value := .ok value
  text := refuse value textWanted
  truth := refuse value truthWanted
  values := refuse value listWanted
  additional := .ok .uninterpreted
  schema := refuse value schemaWanted
  schemas := refuse value listWanted
  schemaMap := refuse value mapWanted

mutual

/-- A JSON value as a source. -/
def ofValue : Value → Forms Cause
  | .null => { scalar .null with isNull := true }
  | .boolean value => { scalar (.boolean value) with
      truth := .ok value
      additional := .ok (if value then .anything else .uninterpreted) }
  | .number value => scalar (.number value)
  | .text value => { scalar (.text value) with text := .ok value }
  | .array items =>
    let sources := ofItems items
    { scalar (.array items) with
      values := .ok items
      schema := fillList sources
      schemas := sources.mapM fun source => source.schema }
  | .object entries =>
    let sources := ofEntries entries
    { scalar (.object entries) with
      additional := .ok (.entries (acceptedEntries sources))
      schema := fillEntries [] .empty sources
      schemaMap := schemaEntries sources }

/-- Items as sources. -/
def ofItems : List Value → List (Forms Cause)
  | [] => []
  | item :: rest => ofValue item :: ofItems rest

/-- Entries as keyed sources. -/
def ofEntries : List (String × Value) → List (String × Forms Cause)
  | [] => []
  | (key, value) :: rest => (key, ofValue value) :: ofEntries rest

end

end Forms

/-- The schema object a JSON value holds. -/
def Clauses.ofValue (value : Value) : Except Cause Clauses :=
  (Forms.ofValue value).schema

/-- What a value of `additionalProperties` says. -/
def Additional.ofValue (value : Value) : Additional Clauses :=
  match value with
  | .boolean true => .anything
  | .object pairs =>
    .entries (pairs.filterMap fun entry =>
      match Clauses.ofValue entry.2 with
      | .ok schema => some (entry.1, schema)
      | .error _ => none)
  | _ => .uninterpreted

end Schema

end SchemaTypes
