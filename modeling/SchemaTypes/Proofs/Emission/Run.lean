import SchemaTypes.Emission.Run
import SchemaTypes.Proofs.Emission.Effect
import Mathlib.Data.List.Nodup

/-!
# What a run leaves

A run emits its definitions one after another. What it leaves of records and of enum names is read
off the definitions: each record definition has left its record, and a name has been taken exactly
if one of the definitions asks for it.

## Main definitions

* `Emission.asksFor`: the enums that a definition asks for, itself included
* `Emission.Context.Consistent`: the names that are taken are those of the enums

## Main results

* `Emission.records_emitAll`: the records of a run
* `Emission.mem_enumNames_emitAll`: the enum names of a run
* `Emission.consistent_emitAll`: every run leaves a consistent context
-/

namespace SchemaTypes

namespace Emission

open Schema TypeScript

/-- The enums that a definition asks for. An enum definition asks for itself. -/
def asksFor (name : String) (definition : Node) : List Request :=
  if definition.isEnum then [⟨name, definition⟩] else hoistsOf name definition

/-- The record that a definition becomes, if it is no enum. -/
def record? (definition : String × Node) : Option RecordDeclaration :=
  if definition.2.isEnum then none else some (recordOf definition.1 definition.2)

/-- Emitting a definition adds its record, if it is no enum, and meets its requests. -/
theorem emitDefinition_eq (context : Context) (name : String) (definition : Node) :
    emitDefinition context name definition =
      ({ context with
          declarations :=
            context.declarations ++ ((record? (name, definition)).map .record).toList } :
        Context).emitEach (asksFor name definition) := by
  cases h : definition.isEnum with
  | true => simp [emitDefinition, record?, asksFor, h, Context.emitEach]
  | false =>
    rw [emitDefinition_of_record context name h]
    simp [record?, asksFor, h, Context.pushRecord]

namespace Context

/-- The context after some more definitions. -/
def emitMore (context : Context) (definitions : List (String × Node)) : Context :=
  definitions.foldl (fun context definition => emitDefinition context definition.1 definition.2)
    context

@[simp] theorem emitMore_nil (context : Context) : context.emitMore [] = context := rfl

@[simp] theorem emitMore_cons (context : Context) (definition : String × Node)
    (rest : List (String × Node)) :
    context.emitMore (definition :: rest) =
      (emitDefinition context definition.1 definition.2).emitMore rest := rfl

end Context

theorem emitAll_eq (definitions : List (String × Node)) :
    emitAll definitions = Context.empty.emitMore definitions := rfl

/-! ### Which names are taken -/

/-- The requests that are met have the same names as all of them. -/
theorem exists_mem_firsts {requests : List Request} {name : String} :
    (∃ request ∈ firsts requests, request.name = name) ↔
      ∃ request ∈ requests, request.name = name := by
  induction requests with
  | nil => simp [firsts]
  | cons first rest ih =>
    by_cases h : first.name = name
    · simp [firsts, h]
    · have hfilter : (∃ request ∈ (firsts rest).filter (fun other => other.name ≠ first.name),
          request.name = name) ↔ ∃ request ∈ firsts rest, request.name = name := by
        constructor
        · rintro ⟨request, hr, rfl⟩
          exact ⟨request, (List.mem_filter.mp hr).1, rfl⟩
        · rintro ⟨request, hr, rfl⟩
          exact ⟨request, List.mem_filter.mpr ⟨hr, by simpa using Ne.symm h⟩, rfl⟩
      simp only [firsts, List.exists_mem_cons_iff, h, false_or, hfilter, ih]

theorem mem_enumNames_emitEach {context : Context} {requests : List Request} {name : String} :
    name ∈ (context.emitEach requests).enumNames ↔
      name ∈ context.enumNames ∨ ∃ request ∈ requests, request.name = name := by
  rw [Context.emitEach_eq, List.mem_append, List.mem_map,
    ← @exists_mem_firsts requests name, kept]
  by_cases h : name ∈ context.enumNames
  · simp [h]
  · simp only [h, false_or]
    constructor
    · rintro ⟨request, hr, rfl⟩
      exact ⟨request, (List.mem_filter.mp hr).1, rfl⟩
    · rintro ⟨request, hr, rfl⟩
      exact ⟨request, List.mem_filter.mpr ⟨hr, by simpa using h⟩, rfl⟩

theorem mem_enumNames_emitDefinition {context : Context} {name : String} {definition : Node}
    {taken : String} :
    taken ∈ (emitDefinition context name definition).enumNames ↔
      taken ∈ context.enumNames ∨ ∃ request ∈ asksFor name definition, request.name = taken := by
  rw [emitDefinition_eq, mem_enumNames_emitEach]

theorem mem_enumNames_emitMore {context : Context} {definitions : List (String × Node)}
    {name : String} :
    name ∈ (context.emitMore definitions).enumNames ↔
      name ∈ context.enumNames ∨ ∃ definition ∈ definitions,
        ∃ request ∈ asksFor definition.1 definition.2, request.name = name := by
  induction definitions generalizing context with
  | nil => simp
  | cons definition rest ih =>
    rw [Context.emitMore_cons, ih, mem_enumNames_emitDefinition, List.exists_mem_cons_iff,
      or_assoc]

/-- **The enum names of a run** are those that its definitions ask for. -/
theorem mem_enumNames_emitAll {definitions : List (String × Node)} {name : String} :
    name ∈ (emitAll definitions).enumNames ↔
      ∃ definition ∈ definitions, ∃ request ∈ asksFor definition.1 definition.2,
        request.name = name := by
  rw [emitAll_eq, mem_enumNames_emitMore]
  simp [Context.empty]

/-! ### Which records are left -/

/-- The records of a list of declarations. -/
def recordsOf (declarations : List Declaration) : List RecordDeclaration :=
  declarations.filterMap Declaration.record?

/-- The enums of a list of declarations. -/
def enumsOf (declarations : List Declaration) : List EnumDeclaration :=
  declarations.filterMap Declaration.enum?

@[simp] theorem recordsOf_append (ds es : List Declaration) :
    recordsOf (ds ++ es) = recordsOf ds ++ recordsOf es :=
  List.filterMap_append

@[simp] theorem recordsOf_nil : recordsOf [] = [] := rfl

@[simp] theorem recordsOf_record (record : RecordDeclaration) (ds : List Declaration) :
    recordsOf (.record record :: ds) = record :: recordsOf ds := rfl

@[simp] theorem recordsOf_enumeration (enum : EnumDeclaration) (ds : List Declaration) :
    recordsOf (.enumeration enum :: ds) = recordsOf ds := rfl

@[simp] theorem enumsOf_append (ds es : List Declaration) :
    enumsOf (ds ++ es) = enumsOf ds ++ enumsOf es :=
  List.filterMap_append

@[simp] theorem enumsOf_nil : enumsOf [] = [] := rfl

@[simp] theorem enumsOf_record (record : RecordDeclaration) (ds : List Declaration) :
    enumsOf (.record record :: ds) = enumsOf ds := rfl

@[simp] theorem enumsOf_enumeration (enum : EnumDeclaration) (ds : List Declaration) :
    enumsOf (.enumeration enum :: ds) = enum :: enumsOf ds := rfl

theorem mem_recordsOf {declarations : List Declaration} {record : RecordDeclaration} :
    record ∈ recordsOf declarations ↔ .record record ∈ declarations := by
  induction declarations with
  | nil => simp
  | cons d rest ih => cases d <;> simp [ih]

theorem mem_enumsOf {declarations : List Declaration} {enum : EnumDeclaration} :
    enum ∈ enumsOf declarations ↔ .enumeration enum ∈ declarations := by
  induction declarations with
  | nil => simp
  | cons d rest ih => cases d <;> simp [ih]

/-- Meeting requests adds no record. -/
theorem recordsOf_emitEach (context : Context) (requests : List Request) :
    recordsOf (context.emitEach requests).declarations = recordsOf context.declarations := by
  have hmet : ∀ met : List Request, recordsOf (met.map Request.declaration) = [] := by
    intro met
    induction met with
    | nil => rfl
    | cons request rest ih => simpa [Request.declaration] using ih
  rw [Context.emitEach_eq, recordsOf_append, hmet, List.append_nil]

theorem recordsOf_emitMore (context : Context) (definitions : List (String × Node)) :
    recordsOf (context.emitMore definitions).declarations =
      recordsOf context.declarations ++ definitions.filterMap record? := by
  induction definitions generalizing context with
  | nil => simp
  | cons definition rest ih =>
    rw [Context.emitMore_cons, ih, emitDefinition_eq, recordsOf_emitEach]
    cases hr : record? definition with
    | none => simp [hr]
    | some record => simp [hr]

/-- **The records of a run** are those of its record definitions, in order. -/
theorem records_emitAll (definitions : List (String × Node)) :
    recordsOf (emitAll definitions).declarations = definitions.filterMap record? := by
  rw [emitAll_eq, recordsOf_emitMore]
  simp [Context.empty]

/-- A record definition has left its record. -/
theorem recordOf_mem_recordsOf {definitions : List (String × Node)} {name : String}
    {definition : Node} (hd : (name, definition) ∈ definitions)
    (henum : definition.isEnum = false) :
    recordOf name definition ∈ recordsOf (emitAll definitions).declarations := by
  rw [records_emitAll]
  exact List.mem_filterMap.mpr ⟨(name, definition), hd, by simp [record?, henum]⟩

/-! ### Names and enums agree -/

/-- The names that are taken are those of the enums, in order, and no two enums share one. -/
structure Context.Consistent (context : Context) : Prop where
  names : context.enumNames = (enumsOf context.declarations).map EnumDeclaration.name
  nodup : context.enumNames.Nodup

namespace Context

theorem Consistent.empty : Consistent Context.empty :=
  ⟨rfl, List.nodup_nil⟩

theorem Consistent.emitEnum {context : Context} (h : context.Consistent) (name : String)
    (node : Node) : (context.emitEnum name node).Consistent := by
  by_cases hname : name ∈ context.enumNames
  · rwa [emitEnum_of_mem hname]
  · rw [emitEnum_of_notMem hname]
    constructor
    · simpa [enumOf] using h.names
    · exact List.nodup_append.mpr ⟨h.nodup, List.nodup_singleton name, by
        rintro a ha b hb rfl
        exact hname (List.mem_singleton.mp hb ▸ ha)⟩

theorem Consistent.emitEach {context : Context} (h : context.Consistent)
    (requests : List Request) : (context.emitEach requests).Consistent := by
  induction requests generalizing context with
  | nil => exact h
  | cons first rest ih => exact ih (h.emitEnum first.name first.node)

theorem Consistent.emitDefinition {context : Context} (h : context.Consistent) (name : String)
    (definition : Node) : (emitDefinition context name definition).Consistent := by
  rw [emitDefinition_eq]
  apply Consistent.emitEach
  refine ⟨?_, h.nodup⟩
  cases record? (name, definition) with
  | none => simpa using h.names
  | some record => simpa using h.names

theorem Consistent.emitMore {context : Context} (h : context.Consistent)
    (definitions : List (String × Node)) : (context.emitMore definitions).Consistent := by
  induction definitions generalizing context with
  | nil => exact h
  | cons definition rest ih => exact ih (h.emitDefinition definition.1 definition.2)

end Context

/-- **Every run leaves a consistent context.** -/
theorem consistent_emitAll (definitions : List (String × Node)) :
    (emitAll definitions).Consistent :=
  Context.Consistent.empty.emitMore definitions

end Emission

end SchemaTypes
