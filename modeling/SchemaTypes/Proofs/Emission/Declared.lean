import SchemaTypes.Proofs.Emission.Selection

/-!
# The declarations of a name

A definition becomes a record or an enum of its name. Enums that properties ask for are named after
the definition and the property, with nothing in between, so one of them can have the name of a
definition. A record does not mind: it stands beside the enum. An enum definition is treated like
any other request for its name, so it is declared only if it comes first.

## Main definitions

* `Emission.Context.named`: the declarations with a name
* `Emission.declarationOf`: the declaration that a definition becomes
* `Emission.asksOf`, `Emission.hoistedBy`: the enums that definitions ask for, and those among them
  that properties ask for

## Main results

* `Emission.enumsOf_emitAll`: the enums of a run
* `Emission.named_of_record`, `named_of_enum`: the declarations with the name of a definition
* `Emission.run_named`: a name that no property asks for has one declaration, its definition's
* `Emission.not_declared_by_itself`: a name that a property asks for may be taken by another
-/

namespace SchemaTypes

namespace Emission

open Schema TypeScript

/-! ### The enums of a run -/

/-- The enums that definitions ask for, one after another. -/
def asksOf (definitions : List (String × Node)) : List Request :=
  definitions.flatMap fun definition => asksFor definition.1 definition.2

namespace Context

/-- The context without its records. -/
def enumsOnly (context : Context) : Context :=
  { context with declarations := (enumsOf context.declarations).map .enumeration }

theorem enumsOnly_emitEnum (context : Context) (name : String) (node : Node) :
    (context.emitEnum name node).enumsOnly = context.enumsOnly.emitEnum name node := by
  have hnames : context.enumsOnly.enumNames = context.enumNames := rfl
  by_cases h : name ∈ context.enumNames
  · rw [emitEnum_of_mem h, emitEnum_of_mem (hnames ▸ h)]
  · rw [emitEnum_of_notMem h, emitEnum_of_notMem (hnames ▸ h)]
    simp [enumsOnly]

theorem enumsOnly_emitEach (context : Context) (requests : List Request) :
    (context.emitEach requests).enumsOnly = context.enumsOnly.emitEach requests := by
  induction requests generalizing context with
  | nil => rfl
  | cons first rest ih => rw [emitEach_cons, ih, enumsOnly_emitEnum, emitEach_cons]

/-- Without its records, a definition is the enums that it asks for. -/
theorem enumsOnly_emitDefinition (context : Context) (name : String) (definition : Node) :
    (emitDefinition context name definition).enumsOnly =
      context.enumsOnly.emitEach (asksFor name definition) := by
  rw [emitDefinition_eq, enumsOnly_emitEach]
  congr 1
  cases record? (name, definition) with
  | none => simp [enumsOnly]
  | some record => simp [enumsOnly]

theorem enumsOnly_emitMore (context : Context) (definitions : List (String × Node)) :
    (context.emitMore definitions).enumsOnly =
      context.enumsOnly.emitEach (asksOf definitions) := by
  induction definitions generalizing context with
  | nil => rfl
  | cons definition rest ih =>
    rw [emitMore_cons, ih, enumsOnly_emitDefinition, ← emitEach_append]
    rfl

end Context

/-- **The enums of a run** are those of the first request for each name. -/
theorem enumsOf_emitAll (definitions : List (String × Node)) :
    enumsOf (emitAll definitions).declarations =
      (firsts (asksOf definitions)).map Request.enum := by
  have h := congrArg Context.declarations (Context.enumsOnly_emitMore .empty definitions)
  rw [Context.emitEach_eq] at h
  have hkept : kept [] (asksOf definitions) = firsts (asksOf definitions) := by simp [kept]
  have henums : (enumsOf (emitAll definitions).declarations).map Declaration.enumeration =
      ((firsts (asksOf definitions)).map Request.enum).map Declaration.enumeration := by
    rw [List.map_map, ← hkept]
    exact h
  exact List.map_injective_iff.mpr (fun _ _ heq => Declaration.enumeration.inj heq) henums

/-- Of the requests for one name, the first is met. -/
theorem filter_firsts (requests : List Request) (name : String) :
    (firsts requests).filter (fun request => request.name = name) =
      (requests.find? fun request => request.name = name).toList := by
  induction requests with
  | nil => rfl
  | cons first rest ih =>
    rw [firsts]
    by_cases h : first.name = name
    · have hrest : ((firsts rest).filter fun other => other.name ≠ first.name).filter
          (fun request => request.name = name) = [] := by
        rw [List.filter_filter, List.filter_eq_nil_iff]
        intro request _
        simp [h]
      rw [List.filter_cons_of_pos (by simpa using h), List.find?_cons_of_pos (by simpa using h),
        hrest, Option.toList_some]
    · rw [List.filter_cons_of_neg (by simpa using h), List.find?_cons_of_neg (by simpa using h),
        ← ih, List.filter_filter]
      refine List.filter_congr fun request _ => ?_
      by_cases hr : request.name = name
      · simp [hr, Ne.symm h]
      · simp [hr]

/-! ### Declarations with a name -/

/-- The declarations with a name, in order. -/
def Context.named (context : Context) (name : String) : List Declaration :=
  context.declarations.filter fun d => d.name = name

theorem recordsOf_named (context : Context) (name : String) :
    recordsOf (context.named name) =
      (recordsOf context.declarations).filter fun record => record.name = name := by
  rw [recordsOf, recordsOf, Context.named, List.filterMap_filter, List.filter_filterMap]
  refine List.filterMap_congr fun d _ => ?_
  cases d with
  | enumeration enum => rw [Declaration.record?, ite_self, Option.filter_none]
  | record record => rw [Declaration.record?, Option.filter_some, Declaration.name]

theorem enumsOf_named (context : Context) (name : String) :
    enumsOf (context.named name) =
      (enumsOf context.declarations).filter fun enum => enum.name = name := by
  rw [enumsOf, enumsOf, Context.named, List.filterMap_filter, List.filter_filterMap]
  refine List.filterMap_congr fun d _ => ?_
  cases d with
  | enumeration enum => rw [Declaration.enum?, Option.filter_some, Declaration.name]
  | record record => rw [Declaration.enum?, ite_self, Option.filter_none]

/-- Declarations without records are enums. -/
theorem eq_map_enumeration {declarations : List Declaration} (h : recordsOf declarations = []) :
    declarations = (enumsOf declarations).map .enumeration := by
  induction declarations with
  | nil => rfl
  | cons d rest ih =>
    cases d with
    | enumeration enum =>
      rw [enumsOf_enumeration, List.map_cons, ← ih h]
    | record record => exact absurd h (List.cons_ne_nil record _)

/-- Declarations without enums are records. -/
theorem eq_map_record {declarations : List Declaration} (h : enumsOf declarations = []) :
    declarations = (recordsOf declarations).map .record := by
  induction declarations with
  | nil => rfl
  | cons d rest ih =>
    cases d with
    | enumeration enum => exact absurd h (List.cons_ne_nil enum _)
    | record record =>
      rw [recordsOf_record, List.map_cons, ← ih h]

/-- The enum with a name is that of the first request for it. -/
theorem enumsOf_named_emitAll (definitions : List (String × Node)) (name : String) :
    enumsOf ((emitAll definitions).named name) =
      ((asksOf definitions).find? fun request => request.name = name).toList.map Request.enum := by
  rw [enumsOf_named, enumsOf_emitAll, ← filter_firsts, List.filter_map]
  rfl

/-! ### The name of a definition -/

/-- The declaration that a definition becomes. -/
def declarationOf (name : String) (definition : Node) : Declaration :=
  if definition.isEnum then .enumeration (Context.enumOf name definition)
  else .record (recordOf name definition)

/-- The enums that the properties of definitions ask for, one after another. -/
def hoistedBy (definitions : List (String × Node)) : List Request :=
  definitions.flatMap fun definition =>
    if definition.2.isEnum then [] else hoistsOf definition.1 definition.2

/-- A name that is not that of an enum definition is only asked for by properties. -/
theorem find?_asksOf {definitions : List (String × Node)} {name : String}
    (h : ∀ definition ∈ definitions, definition.2.isEnum = true → definition.1 ≠ name) :
    ((asksOf definitions).find? fun request => request.name = name) =
      (hoistedBy definitions).find? fun request => request.name = name := by
  induction definitions with
  | nil => rfl
  | cons definition rest ih =>
    obtain ⟨hfirst, hrest⟩ := List.forall_mem_cons.mp h
    rw [asksOf, hoistedBy, List.flatMap_cons, List.flatMap_cons, List.find?_append,
      List.find?_append]
    refine congrArg₂ Option.or ?_ (ih hrest)
    rw [asksFor]
    split
    · next henum => rw [List.find?_cons_of_neg (by simpa using hfirst henum)]
    · rfl

section Split

variable {selected before after : List (String × Node)} {name : String} {definition : Node}
  (hdistinct : (selected.map Prod.fst).Nodup)
  (hselected : selected = before ++ (name, definition) :: after)

include hdistinct hselected

/-- No other definition has the name. -/
theorem ne_of_mem_split {other : String × Node} (h : other ∈ before ∨ other ∈ after) :
    other.1 ≠ name := by
  rw [hselected, List.map_append, List.map_cons] at hdistinct
  obtain ⟨-, hafter, hbefore⟩ := List.nodup_append.mp hdistinct
  rcases h with h | h
  · exact hbefore other.1 (List.mem_map_of_mem h) name List.mem_cons_self
  · have hmem : other.1 ∈ after.map Prod.fst := List.mem_map_of_mem h
    intro heq
    exact (List.nodup_cons.mp hafter).1 (heq ▸ hmem)

/-- The definition is the only one with its name. -/
theorem filter_eq_split :
    (selected.filter fun other => other.1 = name) = [(name, definition)] := by
  have hnone : ∀ others : List (String × Node), (∀ other ∈ others, other.1 ≠ name) →
      (others.filter fun other => other.1 = name) = [] := by
    intro others h
    rw [List.filter_eq_nil_iff]
    exact fun other hother => by simpa using h other hother
  have hbefore := hnone before fun other h => ne_of_mem_split hdistinct hselected (.inl h)
  have hafter := hnone after fun other h => ne_of_mem_split hdistinct hselected (.inr h)
  rw [hselected, List.filter_append, List.filter_cons_of_pos (by simp), hbefore, hafter,
    List.nil_append]

/-- The only record with the name is that of the definition. -/
theorem recordsOf_named_emitAll :
    recordsOf ((emitAll selected).named name) = (record? (name, definition)).toList := by
  rw [recordsOf_named, ← recordsOf_emitAll_filter selected (fun other => other = name),
    filter_eq_split hdistinct hselected, records_emitAll]
  cases hr : record? (name, definition) with
  | none => rw [List.filterMap_cons_none hr, List.filterMap_nil, Option.toList_none]
  | some record => rw [List.filterMap_cons_some hr, List.filterMap_nil, Option.toList_some]

/-- **A record definition** leaves one record of its name, its own. Beside it stands the enum of the
first property that asks for the name, if one does. -/
theorem named_of_record (henum : definition.isEnum = false) :
    recordsOf ((emitAll selected).named name) = [recordOf name definition] ∧
      enumsOf ((emitAll selected).named name) =
        ((hoistedBy selected).find? fun r => r.name = name).toList.map Request.enum := by
  constructor
  · rw [recordsOf_named_emitAll hdistinct hselected, record?, henum]
    rfl
  · rw [enumsOf_named_emitAll, find?_asksOf]
    intro other hother hother_enum
    rw [hselected, List.mem_append, List.mem_cons] at hother
    rcases hother with h | rfl | h
    · exact ne_of_mem_split hdistinct hselected (.inl h)
    · exact absurd hother_enum (by simp [henum])
    · exact ne_of_mem_split hdistinct hselected (.inr h)

/-- **An enum definition** leaves one declaration of its name, an enum. It is its own, unless a
property of a definition before it asks for the name. -/
theorem named_of_enum (henum : definition.isEnum = true) :
    (emitAll selected).named name =
      [(((hoistedBy before).find? fun r => r.name = name).getD
        ⟨name, definition⟩).declaration] := by
  have hbefore : ((asksOf before).find? fun r => r.name = name) =
      (hoistedBy before).find? fun r => r.name = name :=
    find?_asksOf fun other h _ => ne_of_mem_split hdistinct hselected (.inl h)
  have hself : asksFor name definition = [⟨name, definition⟩] := by rw [asksFor, if_pos henum]
  have hrecords : recordsOf ((emitAll selected).named name) = [] := by
    rw [recordsOf_named_emitAll hdistinct hselected, record?, if_pos henum, Option.toList_none]
  rw [eq_map_enumeration hrecords, enumsOf_named_emitAll, hselected, asksOf, List.flatMap_append,
    List.flatMap_cons, List.find?_append, ← asksOf, hbefore, hself, List.singleton_append,
    List.find?_cons_of_pos (by simp), Option.or_some]
  rfl

/-- A name that no property asks for has one declaration, that of its definition. -/
theorem named_of_free (hfree : ∀ request ∈ hoistedBy selected, request.name ≠ name) :
    (emitAll selected).named name = [declarationOf name definition] := by
  have hnone : ∀ requests : List Request, requests ⊆ hoistedBy selected →
      (requests.find? fun r => r.name = name) = none := by
    intro requests h
    rw [List.find?_eq_none]
    exact fun request hr => by simpa using hfree request (h hr)
  cases henum : definition.isEnum with
  | true =>
    have hsub : hoistedBy before ⊆ hoistedBy selected := by
      rw [hselected, hoistedBy, hoistedBy, List.flatMap_append]
      exact List.subset_append_left _ _
    rw [named_of_enum hdistinct hselected henum, hnone _ hsub, declarationOf, if_pos henum]
    rfl
  | false =>
    obtain ⟨hrecords, henums⟩ := named_of_record hdistinct hselected henum
    rw [hnone _ (List.Subset.refl _)] at henums
    rw [eq_map_record henums, hrecords, declarationOf, if_neg (by simp [henum])]
    rfl

end Split

/-- **The declarations of a definition's name.** A selection that is accepted ends. A selected
definition whose name no property of a selected definition asks for is the one declaration of its
name. In any case a record definition leaves exactly one record of its name, its own, beside which
stands the enum of the first property that asks for the name, if there is one; and an enum
definition leaves exactly one declaration of its name, an enum, which is its own unless a property
of a definition before it asks for the name. -/
theorem run_named {document : Document} (hdistinct : document.Distinct) {names : List String}
    {selected : List (String × Node)} (h : document.select names = .ok selected) :
    ∃ context, run document names = .ok context ∧
      ∀ before name definition after, selected = before ++ (name, definition) :: after →
        ((∀ request ∈ hoistedBy selected, request.name ≠ name) →
          context.named name = [declarationOf name definition]) ∧
        (definition.isEnum = false →
          recordsOf (context.named name) = [recordOf name definition] ∧
          enumsOf (context.named name) =
            ((hoistedBy selected).find? fun r => r.name = name).toList.map Request.enum) ∧
        (definition.isEnum = true →
          context.named name =
            [(((hoistedBy before).find? fun r => r.name = name).getD
              ⟨name, definition⟩).declaration]) := by
  refine ⟨emitAll selected, run_of_select h, fun before name definition after hsplit => ?_⟩
  have hnames := hdistinct.select h
  exact ⟨named_of_free hnames hsplit, named_of_record hnames hsplit, named_of_enum hnames hsplit⟩

/-- Two records and an enum. A property of the first record asks for the name of the enum, and one
of the second for its own. -/
def crowded : Document where
  definitions :=
    [("Order",
      { Node.primitive .object with
        kind := .structured
          [("state", { Node.primitive .string with kind := .enumeration [.text "open"] })] }),
     ("Orderstate", { Node.primitive .string with kind := .enumeration [.text "closed"] }),
     ("Item",
      { Node.primitive .object with
        kind := .structured
          [("", { Node.primitive .string with kind := .enumeration [.text "new"] })] })]

/-- The first record is alone under its name, the enum is another's, and the second record stands
beside an enum. -/
theorem run_named_crowded :
    crowded.Distinct ∧ crowded.select [] = .ok crowded.definitions ∧
      ∃ context, run crowded [] = .ok context ∧
        (context.named "Order").map Declaration.name = ["Order"] ∧
        context.named "Orderstate" =
          [.enumeration ⟨"Orderstate", none, [⟨"open", .text "open"⟩]⟩] ∧
        (recordsOf (context.named "Item")).length = 1 ∧
        enumsOf (context.named "Item") = [⟨"Item", none, [⟨"new", .text "new"⟩]⟩] := by
  have hdistinct : crowded.Distinct := by
    rw [Document.Distinct]
    decide
  have hall := select_nil crowded
  obtain ⟨context, hrun, hnamed⟩ := run_named hdistinct hall
  refine ⟨hdistinct, hall, context, hrun, ?_, ?_, ?_, ?_⟩
  · obtain ⟨hfree, -, -⟩ := hnamed [] "Order" _ _ rfl
    rw [hfree (by decide)]
    rfl
  · obtain ⟨-, -, henum⟩ := hnamed [_] "Orderstate" _ _ rfl
    rw [henum rfl]
    rfl
  · obtain ⟨-, hrecord, -⟩ := hnamed [_, _] "Item" _ _ rfl
    rw [(hrecord rfl).1]
    rfl
  · obtain ⟨-, hrecord, -⟩ := hnamed [_, _] "Item" _ _ rfl
    rw [(hrecord rfl).2]
    rfl

/-- A definition need not be declared by itself: the name of an enum definition may be taken by an
enum that a property asked for before. -/
theorem not_declared_by_itself :
    ¬ ∀ (document : Document) (names : List String) (selected : List (String × Node)),
      document.Distinct → document.select names = .ok selected →
        ∃ context, run document names = .ok context ∧
          ∀ definition ∈ selected,
            context.named definition.1 = [declarationOf definition.1 definition.2] := by
  intro h
  have hdistinct : crowded.Distinct := by
    rw [Document.Distinct]
    decide
  obtain ⟨context, hrun, hnamed⟩ := h crowded [] _ hdistinct (select_nil crowded)
  obtain rfl : emitAll crowded.definitions = context := by
    rw [run_of_select (select_nil crowded)] at hrun
    exact Except.ok.inj hrun
  have hstate := hnamed ("Orderstate", _) (List.mem_cons_of_mem _ List.mem_cons_self)
  have hopen : (emitAll crowded.definitions).named "Orderstate" =
      [.enumeration ⟨"Orderstate", none, [⟨"open", .text "open"⟩]⟩] := rfl
  rw [hopen] at hstate
  exact absurd hstate (by decide)

end Emission

end SchemaTypes
