import SchemaTypes.Proofs.Emission.Run

/-!
# Contexts that calls leave

A context knows its enums twice: their names have a list of their own, and the enums themselves
stand among the declarations. Three calls write to a context, and they call one another: an enum is
added, the type of a node is resolved, a definition is emitted. A record is even added in two steps,
with other calls in between. Whatever calls have led to a context, its two accounts of the enums
agree, so a question that it answers from the list of names is answered as its declarations would
answer it.

## Main definitions

* `Emission.Call`: a call that may add declarations
* `Emission.Context.callEach`: a context after some calls
* `Emission.Context.Accurate`: what a context tells is what its declarations show

## Main results

* `Emission.Context.Consistent.call`, `callEach`: calls keep the two accounts in step
* `Emission.accurate_callEach`: any calls leave an accurate context
-/

namespace SchemaTypes

namespace Emission

open Schema TypeScript

/-- A call that may add declarations to a context. -/
inductive Call
  /-- adds the enum of a node under a name -/
  | enumeration (name : String) (node : Node)
  /-- emits a definition -/
  | definition (name : String) (definition : Node)
  /-- resolves the type of a node that belongs to a property of a definition -/
  | resolution (owner key : String) (node : Node)

/-! ### Counting -/

/-- A declaration is an enum or a record, and not both. -/
theorem length_enumsOf_add_length_recordsOf (declarations : List Declaration) :
    (enumsOf declarations).length + (recordsOf declarations).length = declarations.length := by
  induction declarations with
  | nil => rfl
  | cons d rest ih =>
    cases d with
    | enumeration enum =>
      rw [enumsOf_enumeration, recordsOf_enumeration, List.length_cons, List.length_cons, ← ih]
      omega
    | record record =>
      rw [enumsOf_record, recordsOf_record, List.length_cons, List.length_cons, ← ih]
      omega

namespace Context

variable {context : Context}

/-! ### Calls -/

/-- The context after a call. -/
def call (context : Context) : Call → Context
  | .enumeration name node => context.emitEnum name node
  | .definition name definition => emitDefinition context name definition
  | .resolution owner key node => (resolve owner context key node).2

/-- The context after some calls, one after another. -/
def callEach (context : Context) (calls : List Call) : Context :=
  calls.foldl call context

/-- Resolving only ever adds enums, and each under a free name. -/
theorem Consistent.resolve (h : context.Consistent) (owner key : String) (node : Node) :
    (resolve owner context key node).2.Consistent := by
  rw [resolve_eq]
  exact h.emitEach (requestsOf owner key node)

/-- A call keeps names and enums in step. -/
theorem Consistent.call (h : context.Consistent) (call : Call) :
    (context.call call).Consistent := by
  cases call with
  | enumeration name node => exact h.emitEnum name node
  | definition name definition => exact h.emitDefinition name definition
  | resolution owner key node => exact h.resolve owner key node

/-- Any calls keep names and enums in step. -/
theorem Consistent.callEach (h : context.Consistent) (calls : List Call) :
    (context.callEach calls).Consistent := by
  induction calls generalizing context with
  | nil => exact h
  | cons first rest ih => exact ih (h.call first)

/-! ### What a context tells -/

/-- What a context tells about its enums and records is what its declarations show. -/
structure Accurate (context : Context) : Prop where
  mem_enumNames_iff : ∀ name, name ∈ context.enumNames ↔
    ∃ enum, .enumeration enum ∈ context.declarations ∧ enum.name = name
  nodup_enums : ((enumsOf context.declarations).map EnumDeclaration.name).Nodup
  hasEnum_iff : ∀ name, context.hasEnum name = true ↔ ∃ enum, context.findEnum? name = some enum
  enumCount_eq : context.enumCount = (enumsOf context.declarations).length
  /-- the number of records is a true difference -/
  enumCount_le : context.enumCount ≤ context.size
  recordCount_eq : context.recordCount = (recordsOf context.declarations).length

namespace Consistent

theorem mem_enumNames_iff (h : context.Consistent) (name : String) :
    name ∈ context.enumNames ↔
      ∃ enum, .enumeration enum ∈ context.declarations ∧ enum.name = name := by
  rw [h.names, List.mem_map]
  constructor
  · rintro ⟨enum, henum, hname⟩
    exact ⟨enum, mem_enumsOf.mp henum, hname⟩
  · rintro ⟨enum, henum, hname⟩
    exact ⟨enum, mem_enumsOf.mpr henum, hname⟩

/-- A name is taken exactly if looking for its enum finds one. -/
theorem hasEnum_iff (h : context.Consistent) (name : String) :
    context.hasEnum name = true ↔ ∃ enum, context.findEnum? name = some enum := by
  rw [hasEnum, List.contains_iff_mem, h.names, List.mem_map, ← Option.isSome_iff_exists,
    findEnum?, List.find?_isSome]
  constructor
  · rintro ⟨enum, henum, hname⟩
    exact ⟨enum, henum, decide_eq_true hname⟩
  · rintro ⟨enum, henum, hname⟩
    exact ⟨enum, henum, of_decide_eq_true hname⟩

theorem enumCount_eq (h : context.Consistent) :
    context.enumCount = (enumsOf context.declarations).length := by
  rw [enumCount, h.names, List.length_map]

theorem accurate (h : context.Consistent) : context.Accurate := by
  have hsize := length_enumsOf_add_length_recordsOf context.declarations
  have hcount := h.enumCount_eq
  refine ⟨h.mem_enumNames_iff, h.names ▸ h.nodup, h.hasEnum_iff, hcount, ?_, ?_⟩
  · rw [hcount, size]
    omega
  · rw [recordCount, hcount, size]
    omega

end Consistent

end Context

/-- **Any calls leave an accurate context.** The names that are taken are those of the enums that
are declared, no two enums share a name, looking up an enum agrees with asking for its name, and
both counts are those of the declarations. -/
theorem accurate_callEach (calls : List Call) : (Context.empty.callEach calls).Accurate :=
  (Context.Consistent.empty.callEach calls).accurate

end Emission

end SchemaTypes
