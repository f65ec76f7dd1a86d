import SchemaTypes.Check.Report
import SchemaTypes.Entries
import SchemaTypes.Proofs.Emission.Calls
import SchemaTypes.Proofs.Emission.Declared
import Mathlib

/-!
# The counts of a report

A report does not look at the text of a run. It counts the shapes of the definitions in a loop of
its own, takes the number of enums from the names that the run has taken, and the number of
interfaces from what is left of the declarations. Here these numbers are tied to the definitions,
and to the declarations that the run writes out.

## Main results

* `Check.tally_eq`: counting one kind after another
* `Check.interfaces_ofDocument`, `Check.enums_ofDocument`: what the definitions say about the counts
* `Check.ofDocument_accurate`: a report tells what a run over the whole document leaves
-/

namespace SchemaTypes

namespace Check

open Schema TypeScript Emission

/-! ### Counting kinds -/

/-- Kinds counted one after another. -/
def tally (kinds : List String) : List (String × Nat) :=
  kinds.foldl (fun counts kind => countKind kind counts) []

theorem tally_concat (kinds : List String) (kind : String) :
    tally (kinds ++ [kind]) = countKind kind (tally kinds) := by
  rw [tally, List.foldl_append]
  rfl

/-- A kind behind others is a new one, or has been met. -/
theorem eraseDups_concat (kinds : List String) (kind : String) :
    (kinds ++ [kind]).eraseDups =
      if kind ∈ kinds then kinds.eraseDups else kinds.eraseDups ++ [kind] := by
  rw [List.eraseDups_append]
  by_cases h : kind ∈ kinds
  · simp [List.removeAll, h]
  · simp [List.removeAll, h, List.eraseDups_cons]

theorem nodup_eraseDups (kinds : List String) : kinds.eraseDups.Nodup := by
  induction kinds using List.reverseRecOn with
  | nil => exact List.nodup_nil
  | append_singleton kinds kind ih =>
    rw [eraseDups_concat]
    split
    · exact ih
    · next h =>
      rw [← List.concat_eq_append]
      exact ih.concat fun hmem => h (List.mem_eraseDups.mp hmem)

/-- One more of a kind among distinct kinds raises the count of that kind alone. -/
theorem countKind_map {kinds : List String} (h : kinds.Nodup) (kind : String)
    (count : String → Nat) :
    countKind kind (kinds.map fun other => (other, count other)) =
      if kind ∈ kinds then
        kinds.map fun other => (other, if other = kind then count other + 1 else count other)
      else kinds.map (fun other => (other, count other)) ++ [(kind, 1)] := by
  induction kinds with
  | nil => rfl
  | cons first rest ih =>
    obtain ⟨hfirst, hrest⟩ := List.nodup_cons.mp h
    rw [List.map_cons, countKind]
    by_cases hk : first = kind
    · subst hk
      have hothers : rest.map (fun other =>
          (other, if other = first then count other + 1 else count other)) =
          rest.map fun other => (other, count other) := by
        refine List.map_congr_left fun other hother => ?_
        have hne : other ≠ first := fun heq => hfirst (heq ▸ hother)
        rw [if_neg hne]
      simp [hothers]
    · rw [if_neg hk, ih hrest]
      by_cases hmem : kind ∈ rest
      · simp [hmem, hk]
      · simp [hmem, Ne.symm hk]

/-- **Counting one kind after another** lists each kind that occurs once, in the order of first
appearance, with the number of times it occurs. -/
theorem tally_eq (kinds : List String) :
    tally kinds = kinds.eraseDups.map fun kind => (kind, kinds.count kind) := by
  induction kinds using List.reverseRecOn with
  | nil => rfl
  | append_singleton kinds kind ih =>
    have hcount : ∀ other, (kinds ++ [kind]).count other =
        if other = kind then kinds.count other + 1 else kinds.count other := by
      intro other
      rw [List.count_append, List.count_singleton]
      by_cases h : other = kind
      · simp [h]
      · simp [h, Ne.symm h]
    simp only [tally_concat, ih, countKind_map (nodup_eraseDups kinds), eraseDups_concat, hcount]
    by_cases h : kind ∈ kinds
    · simp [h]
    · have hnew : kinds.eraseDups.map (fun other =>
          (other, if other = kind then kinds.count other + 1 else kinds.count other)) =
          kinds.eraseDups.map fun other => (other, kinds.count other) := by
        refine List.map_congr_left fun other hother => ?_
        have hne : other ≠ kind := fun heq => h (heq ▸ List.mem_eraseDups.mp hother)
        rw [if_neg hne]
      simp [h, hnew, List.count_eq_zero_of_not_mem h]

theorem sum_countKind (kind : String) (counts : List (String × Nat)) :
    ((countKind kind counts).map Prod.snd).sum = (counts.map Prod.snd).sum + 1 := by
  induction counts with
  | nil => rfl
  | cons first rest ih =>
    rw [countKind]
    split
    · simp only [List.map_cons, List.sum_cons]
      omega
    · simp only [List.map_cons, List.sum_cons, ih]
      omega

/-- Every kind that is met is counted once. -/
theorem sum_tally (kinds : List String) : ((tally kinds).map Prod.snd).sum = kinds.length := by
  induction kinds using List.reverseRecOn with
  | nil => rfl
  | append_singleton kinds kind ih =>
    rw [tally_concat, sum_countKind, ih, List.length_append, List.length_singleton]

/-- The count of a kind, 0 if it has none. -/
def countOf (kind : String) (counts : List (String × Nat)) : Nat :=
  (Entries.find? kind counts).getD 0

/-- The count of a kind is the number of times it occurs. -/
theorem countOf_tally (kind : String) (kinds : List String) :
    countOf kind (tally kinds) = kinds.count kind := by
  have hfind : ∀ others : List String,
      Entries.find? kind (others.map fun other => (other, kinds.count other)) =
        if kind ∈ others then some (kinds.count kind) else none := by
    intro others
    induction others with
    | nil => rfl
    | cons first rest ih =>
      rw [List.map_cons, Entries.find?]
      by_cases h : first = kind
      · simp [h]
      · simp [h, Ne.symm h, ih]
  rw [countOf, tally_eq, hfind]
  by_cases h : kind ∈ kinds
  · simp [h]
  · simp [h, List.count_eq_zero_of_not_mem h]

/-! ### What the definitions say -/

/-- The names of the shapes of definitions, in order. -/
def shapeNames (definitions : List (String × Node)) : List String :=
  definitions.map fun definition => definition.2.shape.name

theorem kinds_ofDocument (document : Document) (inputPath : String) :
    (Report.ofDocument document inputPath).kinds = tally (shapeNames document.definitions) := by
  rw [Report.ofDocument, tally, shapeNames, List.foldl_map]

/-- Different shapes have different names. -/
theorem name_injective : Function.Injective Shape.name := by
  intro a b h
  cases a <;> cases b <;> first | rfl | exact absurd h (by decide)

theorem isEnum_iff (node : Node) : node.isEnum = true ↔ node.shape = .enumeration := by
  obtain ⟨_, _, _, _, kind, _⟩ := node
  cases kind <;> simp [Node.shape, Kind.shape, Node.isEnum, Node.enumValues?]

/-- The number of times the name of a shape occurs is that of the definitions of this shape. -/
theorem count_shapeNames (definitions : List (String × Node)) (shape : Shape) :
    (shapeNames definitions).count shape.name =
      definitions.countP fun definition => definition.2.shape = shape := by
  rw [shapeNames, List.count_eq_countP, List.countP_map]
  refine List.countP_congr fun definition _ => ?_
  rw [Function.comp_apply, beq_iff_eq, decide_eq_true_iff]
  exact name_injective.eq_iff

/-- There is a record for each definition that is no enum. -/
theorem length_filterMap_record? (definitions : List (String × Node)) :
    (definitions.filterMap record?).length =
      definitions.countP fun definition => definition.2.shape ≠ .enumeration := by
  rw [List.length_filterMap_eq_countP]
  refine List.countP_congr fun definition _ => ?_
  rw [decide_eq_true_iff, ne_eq, ← isEnum_iff, record?]
  cases definition.2.isEnum <;> simp

/-- The interfaces of a report are the definitions that are no enums. -/
theorem interfaces_ofDocument (document : Document) (inputPath : String) :
    (Report.ofDocument document inputPath).interfaces =
      document.definitions.countP fun definition => definition.2.shape ≠ .enumeration := by
  have haccurate := (consistent_emitAll document.definitions).accurate
  rw [← length_filterMap_record?, ← records_emitAll, ← haccurate.recordCount_eq]
  rfl

/-- The names of the enum definitions and those of the enums that properties ask for. -/
theorem mem_enumNames_iff (definitions : List (String × Node)) (name : String) :
    name ∈ (emitAll definitions).enumNames ↔
      name ∈ (definitions.filter fun definition => definition.2.isEnum).map Prod.fst ∨
        name ∈ (hoistedBy definitions).map Request.name := by
  rw [mem_enumNames_emitAll, List.mem_map, List.mem_map]
  constructor
  · rintro ⟨definition, hd, request, hrequest, rfl⟩
    cases henum : definition.2.isEnum with
    | true =>
      rw [asksFor, if_pos henum, List.mem_singleton] at hrequest
      exact .inl ⟨definition, List.mem_filter.mpr ⟨hd, henum⟩, congrArg Request.name hrequest.symm⟩
    | false =>
      refine .inr ⟨request, List.mem_flatMap.mpr ⟨definition, hd, ?_⟩, rfl⟩
      simpa [asksFor, henum] using hrequest
  · rintro (⟨definition, hd, rfl⟩ | ⟨request, hrequest, rfl⟩)
    · obtain ⟨hmem, henum⟩ := List.mem_filter.mp hd
      exact ⟨definition, hmem, ⟨definition.1, definition.2⟩, by simp [asksFor, henum], rfl⟩
    · obtain ⟨definition, hd, hmem⟩ := List.mem_flatMap.mp hrequest
      cases henum : definition.2.isEnum with
      | true => simp [henum] at hmem
      | false => exact ⟨definition, hd, request, by simpa [asksFor, henum] using hmem, rfl⟩

/-- The enums of a report are the distinct names of enum definitions and of enums that properties
ask for. -/
theorem enums_ofDocument (document : Document) (inputPath : String) :
    (Report.ofDocument document inputPath).enums =
      (((document.definitions.filter fun definition => definition.2.isEnum).map
          Prod.fst).toFinset ∪
        ((hoistedBy document.definitions).map Request.name).toFinset).card := by
  have hnodup := (consistent_emitAll document.definitions).nodup
  have hnames : (emitAll document.definitions).enumNames.toFinset =
      ((document.definitions.filter fun definition => definition.2.isEnum).map
          Prod.fst).toFinset ∪
        ((hoistedBy document.definitions).map Request.name).toFinset := by
    ext name
    rw [Finset.mem_union, List.mem_toFinset, List.mem_toFinset, List.mem_toFinset,
      mem_enumNames_iff]
  rw [← hnames, List.toFinset_card_of_nodup hnodup]
  rfl

/-! ### Reports -/

/-- **A report tells what a run over the whole document leaves.** That run ends, and the interfaces
and enums of the report are the records and enums that it writes out. There is one interface for
each definition that is no enum. The kinds are listed in the order of first appearance, each once
and with the number of definitions of that kind; these numbers add up to that of the definitions,
and so do the enums among the definitions and the interfaces. There is one enum for each name that
an enum definition has or that a property asks for. -/
theorem ofDocument_accurate (document : Document) (inputPath : String) :
    (∃ context, run document [] = .ok context ∧
      (∀ options, generate document [] options =
        .ok (renderDeclarations options context.declarations)) ∧
      (Report.ofDocument document inputPath).interfaces =
        (recordsOf context.declarations).length ∧
      (Report.ofDocument document inputPath).enums = (enumsOf context.declarations).length) ∧
    (Report.ofDocument document inputPath).definitions = document.definitions.length ∧
    (Report.ofDocument document inputPath).interfaces =
      document.definitions.countP (fun definition => definition.2.shape ≠ .enumeration) ∧
    (Report.ofDocument document inputPath).kinds =
      (shapeNames document.definitions).eraseDups.map
        (fun kind => (kind, (shapeNames document.definitions).count kind)) ∧
    ((Report.ofDocument document inputPath).kinds.map Prod.snd).sum =
      (Report.ofDocument document inputPath).definitions ∧
    countOf "enum" (Report.ofDocument document inputPath).kinds +
        (Report.ofDocument document inputPath).interfaces =
      (Report.ofDocument document inputPath).definitions ∧
    (Report.ofDocument document inputPath).enums =
      (((document.definitions.filter fun definition => definition.2.isEnum).map
          Prod.fst).toFinset ∪
        ((hoistedBy document.definitions).map Request.name).toFinset).card := by
  have hrun := run_of_select (select_nil document)
  have haccurate := (consistent_emitAll document.definitions).accurate
  refine ⟨⟨emitAll document.definitions, hrun, fun options => ?_, haccurate.recordCount_eq,
    haccurate.enumCount_eq⟩, rfl, ?_, ?_, ?_, ?_, enums_ofDocument document inputPath⟩
  · rw [generate, hrun]
    rfl
  · exact interfaces_ofDocument document inputPath
  · rw [kinds_ofDocument, tally_eq]
  · rw [kinds_ofDocument, sum_tally, shapeNames, List.length_map]
    rfl
  · have henum : countOf "enum" (tally (shapeNames document.definitions)) =
        document.definitions.countP fun definition => definition.2.shape = .enumeration := by
      rw [countOf_tally, ← count_shapeNames]
      rfl
    rw [kinds_ofDocument, henum, interfaces_ofDocument]
    have hlength := document.definitions.length_eq_countP_add_countP
      fun definition => definition.2.shape = .enumeration
    simp only [decide_eq_true_eq] at hlength
    exact hlength.symm

end Check

end SchemaTypes
