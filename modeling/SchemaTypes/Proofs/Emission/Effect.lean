import SchemaTypes.Proofs.Emission.Requests

/-!
# What emitting a definition does

A run threads one context through every definition, every member and every node inside a member. The
effect of all that on the context is a list of requests, met in order. Of the requests for one name
the first is met, and none is met whose name was taken before; so the declarations that a list of
requests adds can be written down without running it.

## The place of a record

A record is added before the enums that its members ask for, and is given its members afterwards, by
its place. Requests only ever add behind the declarations that are there, which is why the place
still holds the record when the members arrive.

## Main definitions

* `Emission.memberType`, `Emission.memberOf`, `Emission.recordOf`: the record of a definition
* `Emission.hoistsOf`: the enums that a record definition asks for
* `Emission.firsts`, `Emission.kept`: the requests that are met
* `Emission.Request.enum`: the enum that meets a request

## Main results

* `Emission.Context.emitEach_eq`: what meeting requests adds
* `Emission.emitDefinition_of_record`: a record definition adds its record and meets its requests
* `Emission.emitDefinition_effect`: the exact effect of any definition on any context
-/

namespace SchemaTypes

namespace Emission

open Schema TypeScript

/-! ### Members -/

/-- The type of the member for a property. An enum is only named. -/
def memberType (owner property : String) (node : Node) : TypeExpr :=
  if node.isEnum then .named (owner ++ normalizeKey property)
  else typeOf owner (normalizeKey property) node

/-- The member for a property. -/
def memberOf (owner property : String) (node : Node) : RecordMember where
  name := normalizeKey property
  type := (memberType owner property node).render
  doc := some (describe node)
  optional := node.nullable

/-- The enums that the member for a property asks for. An enum asks for itself and for nothing
else. -/
def memberRequests (owner property : String) (node : Node) : List Request :=
  if node.isEnum then [⟨owner ++ normalizeKey property, node⟩]
  else requestsOf owner (normalizeKey property) node

theorem emitMember_eq (owner : String) (context : Context) (property : String) (node : Node) :
    emitMember owner context property node =
      (memberOf owner property node, context.emitEach (memberRequests owner property node)) := by
  rw [emitMember, memberOf, memberType, memberRequests]
  cases node.isEnum with
  | true => simp [TypeExpr.render]
  | false => simp [resolve_eq]

/-- The record of a definition. -/
def recordOf (name : String) (definition : Node) : RecordDeclaration where
  name := name
  doc := some (describe definition)
  members := (memberSource definition).map fun entry => memberOf name entry.1 entry.2

/-- The enums that a definition asks for, member after member. -/
def hoistsOf (name : String) (definition : Node) : List Request :=
  (memberSource definition).flatMap fun entry => memberRequests name entry.1 entry.2

theorem emitMembers_eq (owner : String) (context : Context) (entries : List (String × Node)) :
    emitMembers owner context entries =
      (entries.map fun entry => memberOf owner entry.1 entry.2,
        context.emitEach (entries.flatMap fun entry =>
          memberRequests owner entry.1 entry.2)) := by
  induction entries generalizing context with
  | nil => rfl
  | cons entry rest ih =>
    simp only [emitMembers, emitMember_eq, ih, List.map_cons, List.flatMap_cons,
      Context.emitEach_append]

/-! ### The requests that are met -/

/-- The first request for each name, in order. -/
def firsts : List Request → List Request
  | [] => []
  | first :: rest => first :: (firsts rest).filter fun other => other.name ≠ first.name

/-- The first request for each name that is not among those taken. -/
def kept (taken : List String) (requests : List Request) : List Request :=
  (firsts requests).filter fun request => request.name ∉ taken

/-- The enum that meets a request. It has the name that is asked for, the description of the node,
and a member for each value of the node. -/
def Request.enum (request : Request) : EnumDeclaration where
  name := request.name
  doc := request.node.description
  members := (request.node.enumValues?.getD []).map fun value => ⟨enumMemberName value, value⟩

/-- The enum of a node under a name is what meets the request for it. -/
theorem enumOf_eq (name : String) (node : Node) :
    Context.enumOf name node = Request.enum ⟨name, node⟩ := rfl

/-- The declaration of the enum that meets a request. -/
def Request.declaration (request : Request) : Declaration :=
  .enumeration request.enum

theorem mem_of_mem_firsts {requests : List Request} {asked : Request}
    (h : asked ∈ firsts requests) : asked ∈ requests := by
  induction requests with
  | nil => cases h
  | cons first rest ih =>
    rw [firsts] at h
    rcases List.mem_cons.mp h with rfl | h
    · exact List.mem_cons_self
    · exact List.mem_cons_of_mem first (ih (List.mem_filter.mp h).1)

/-- A request that is met is one of those that are made. -/
theorem mem_of_mem_kept {taken : List String} {requests : List Request} {asked : Request}
    (h : asked ∈ kept taken requests) : asked ∈ requests :=
  mem_of_mem_firsts (List.mem_filter.mp h).1

@[simp] theorem kept_nil (taken : List String) : kept taken [] = [] := rfl

/-- A request whose name is taken is not met. -/
theorem kept_cons_of_mem {taken : List String} {first : Request} (h : first.name ∈ taken)
    (rest : List Request) : kept taken (first :: rest) = kept taken rest := by
  have hne : ∀ request : Request, request.name ∉ taken → request.name ≠ first.name := by
    intro request hr heq
    exact hr (heq ▸ h)
  simp only [kept, firsts, List.filter_cons, h, not_true_eq_false, decide_false,
    Bool.false_eq_true, if_false, List.filter_filter]
  refine List.filter_congr fun request _ => ?_
  by_cases hr : request.name ∈ taken
  · simp [hr]
  · simp [hr, hne request hr]

/-- A request whose name is free is met, and takes the name. -/
theorem kept_cons_of_notMem {taken : List String} {first : Request} (h : first.name ∉ taken)
    (rest : List Request) :
    kept taken (first :: rest) = first :: kept (taken ++ [first.name]) rest := by
  simp only [kept, firsts, List.filter_cons, h, not_false_eq_true, decide_true, if_true,
    List.filter_filter]
  congr 1
  refine List.filter_congr fun request _ => ?_
  simp [not_or]

namespace Context

theorem emitEnum_of_mem {context : Context} {name : String} (h : name ∈ context.enumNames)
    (node : Node) : context.emitEnum name node = context := by
  simp [emitEnum, hasEnum, h]

theorem emitEnum_of_notMem {context : Context} {name : String} (h : name ∉ context.enumNames)
    (node : Node) :
    context.emitEnum name node =
      { enumNames := context.enumNames ++ [name]
        declarations := context.declarations ++ [.enumeration (enumOf name node)] } := by
  simp [emitEnum, hasEnum, h]

/-- **What meeting requests adds.** The first request for each free name adds its enum behind the
declarations that are there, and takes the name. -/
theorem emitEach_eq (context : Context) (requests : List Request) :
    context.emitEach requests =
      { enumNames := context.enumNames ++ (kept context.enumNames requests).map Request.name
        declarations :=
          context.declarations ++ (kept context.enumNames requests).map Request.declaration } := by
  induction requests generalizing context with
  | nil => simp
  | cons first rest ih =>
    rw [emitEach_cons, ih]
    by_cases h : first.name ∈ context.enumNames
    · rw [emitEnum_of_mem h, kept_cons_of_mem h]
    · rw [emitEnum_of_notMem h, kept_cons_of_notMem h]
      simp [Request.declaration, enumOf_eq]

/-! ### The place of a record -/

/-- Members reach the record whose place they are given, whatever follows it. -/
theorem setMembers_append (names : List String) (before after : List Declaration)
    (record : RecordDeclaration) (members : List RecordMember) :
    setMembers ⟨names, before ++ .record record :: after⟩ before.length members =
      ⟨names, before ++ .record { record with members := members } :: after⟩ := by
  simp [setMembers]

end Context

/-- A definition that is no enum adds its record, and behind it meets its requests. -/
theorem emitDefinition_of_record (context : Context) (name : String) {definition : Node}
    (h : definition.isEnum = false) :
    emitDefinition context name definition =
      (context.pushRecord (recordOf name definition)).1.emitEach (hoistsOf name definition) := by
  simp only [emitDefinition, h, Bool.false_eq_true, if_false, Context.pushRecord, emitMembers_eq,
    Context.emitEach_eq, List.append_assoc, List.singleton_append, Context.setMembers_append]
  rfl

/-! ### The effect of a definition -/

/-- **The effect of a definition.** A record definition leaves the declarations that are there as
they are and adds its record, with all its members, and behind it the enum of the first request for
each name that no enum has taken; these names are then taken. An enum definition adds its enum if
the name is free, and changes nothing if it is not. -/
theorem emitDefinition_effect (context : Context) (name : String) (definition : Node) :
    emitDefinition context name definition =
      if definition.isEnum then
        if name ∈ context.enumNames then context
        else
          { enumNames := context.enumNames ++ [name]
            declarations := context.declarations ++ [Request.declaration ⟨name, definition⟩] }
      else
        { enumNames :=
            context.enumNames ++
              (kept context.enumNames (hoistsOf name definition)).map Request.name
          declarations :=
            context.declarations ++
              .record (recordOf name definition) ::
                (kept context.enumNames (hoistsOf name definition)).map Request.declaration } := by
  cases h : definition.isEnum with
  | true =>
    rw [emitDefinition, if_pos h, if_pos rfl]
    split
    · next hname => exact Context.emitEnum_of_mem hname definition
    · next hname => exact Context.emitEnum_of_notMem hname definition
  | false =>
    rw [emitDefinition_of_record context name h, Context.emitEach_eq]
    simp [Context.pushRecord]

end Emission

end SchemaTypes
