import SchemaTypes.Proofs.Emission.Reference
import SchemaTypes.Proofs.Schema.Selection

/-!
# Selections and orders

All definitions of a run share one context, and the first enum of a name is the one that is kept, so
what a run leaves of its enums hangs on which definitions it meets and in which order. Its records
do not, and neither do the names that its enums take: what a definition becomes and what it asks for
is settled by the definition alone.

## Main results

* `Emission.recordsOf_emitAll_filter`: the records of some definitions are those that all of them
  leave under their names
* `Emission.run_independent`: what selections and orders leave alone
-/

namespace SchemaTypes

namespace Emission

open Schema TypeScript

variable {definitions others : List (String × Node)}

/-! ### What definitions leave -/

theorem name_of_record? {definition : String × Node} {record : RecordDeclaration}
    (h : record? definition = some record) : record.name = definition.1 := by
  rw [record?] at h
  split at h
  · cases h
  · rw [← Option.some.inj h, recordOf]

/-- **The records of some definitions** are the records that all of them leave under their names. -/
theorem recordsOf_emitAll_filter (definitions : List (String × Node)) (p : String → Bool) :
    recordsOf (emitAll (definitions.filter fun definition => p definition.1)).declarations =
      (recordsOf (emitAll definitions).declarations).filter fun record => p record.name := by
  rw [records_emitAll, records_emitAll, List.filterMap_filter, List.filter_filterMap]
  refine List.filterMap_congr fun definition _ => ?_
  cases hr : record? definition with
  | none => rw [Option.filter_none, ite_self]
  | some record => rw [Option.filter_some, name_of_record? hr]

theorem enumNames_emitAll_subset (h : definitions ⊆ others) {name : String}
    (hname : name ∈ (emitAll definitions).enumNames) : name ∈ (emitAll others).enumNames := by
  obtain ⟨definition, hd, hasks⟩ := mem_enumNames_emitAll.mp hname
  exact mem_enumNames_emitAll.mpr ⟨definition, h hd, hasks⟩

/-- A record stays as it is wherever its definition stands. -/
theorem recordsOf_emitAll_perm (h : definitions.Perm others) :
    (recordsOf (emitAll definitions).declarations).Perm
      (recordsOf (emitAll others).declarations) := by
  rw [records_emitAll, records_emitAll]
  exact h.filterMap record?

/-- The order of the definitions does not decide which names are taken, only by whom. -/
theorem mem_enumNames_emitAll_perm (h : definitions.Perm others) (name : String) :
    name ∈ (emitAll definitions).enumNames ↔ name ∈ (emitAll others).enumNames :=
  ⟨enumNames_emitAll_subset h.subset, enumNames_emitAll_subset h.symm.subset⟩

/-! ### Runs -/

/-- **What selections and orders leave alone.** The records of a selection are those that the whole
document leaves for the definitions selected, in the same order, and its enums take no other names.
Selections with the same names give the same text. Reordering a document reorders its records and
takes the same names. -/
theorem run_independent (document : Document) :
    (∀ names selected, document.select names = .ok selected →
      ∃ context whole, run document names = .ok context ∧ run document [] = .ok whole ∧
        recordsOf context.declarations =
          (recordsOf whole.declarations).filter (fun r => r.name ∈ selected.map Prod.fst) ∧
        ∀ name ∈ context.enumNames, name ∈ whole.enumNames) ∧
    (∀ names others selected, document.select names = .ok selected →
      (∀ name, name ∈ names ↔ name ∈ others) → ∀ options,
        ∃ text, generate document names options = .ok text ∧
          generate document others options = .ok text) ∧
    (∀ permuted : Document, permuted.definitions.Perm document.definitions →
      ∀ names selected, document.select names = .ok selected →
        ∃ context reordered, run document names = .ok context ∧
          run permuted names = .ok reordered ∧
          (recordsOf reordered.declarations).Perm (recordsOf context.declarations) ∧
          ∀ name, name ∈ reordered.enumNames ↔ name ∈ context.enumNames) := by
  refine ⟨fun names selected h => ?_, fun names others selected h hsame options => ?_,
    fun permuted hperm names selected h => ?_⟩
  · refine ⟨emitAll selected, emitAll document.definitions, run_of_select h,
      run_of_select (select_nil document), ?_, fun name hname => ?_⟩
    · obtain ⟨-, hselected⟩ := Document.select_eq_ok_iff.mp h
      conv_lhs => rw [hselected]
      rw [recordsOf_emitAll_filter document.definitions (Document.isChosen names)]
      refine List.filter_congr fun r hr => ?_
      -- a record of the whole run comes from a definition with its name
      rw [records_emitAll] at hr
      obtain ⟨definition, hd, hrecord⟩ := List.mem_filterMap.mp hr
      rw [name_of_record? hrecord, Bool.eq_iff_iff, decide_eq_true_iff,
        Document.mem_map_fst_iff h hd]
    · obtain ⟨-, rfl⟩ := Document.select_eq_ok_iff.mp h
      exact enumNames_emitAll_subset (List.filter_subset_self _) hname
  · have hothers := Document.select_congr hsame h
    refine ⟨(emitAll selected).render options, ?_, ?_⟩
    · rw [generate, run_of_select h, Except.map]
    · rw [generate, run_of_select hothers, Except.map]
  · obtain ⟨others, hothers, hselected⟩ := Document.select_perm hperm h
    exact ⟨emitAll selected, emitAll others, run_of_select h, run_of_select hothers,
      recordsOf_emitAll_perm hselected, mem_enumNames_emitAll_perm hselected⟩

/-- Two definitions that ask for one enum. Which of them comes first decides about its values. -/
def orders : Document where
  definitions :=
    [("Order",
      { Node.primitive .object with
        kind := .structured
          [("Itemstate", { Node.primitive .string with kind := .enumeration [.text "new"] })] }),
     ("OrderItem",
      { Node.primitive .object with
        kind := .structured
          [("state", { Node.primitive .string with kind := .enumeration [.text "sent"] })] })]

/-- The orders, of which one definition is selected, with a name given twice, and in reverse. -/
theorem run_independent_orders :
    (∃ context whole, run orders ["OrderItem"] = .ok context ∧ run orders [] = .ok whole ∧
      recordsOf context.declarations =
        (recordsOf whole.declarations).filter (fun r => r.name ∈ ["OrderItem"]) ∧
      ∀ name ∈ context.enumNames, name ∈ whole.enumNames) ∧
    (∃ text, generate orders ["Order", "OrderItem"] .standard = .ok text ∧
      generate orders ["OrderItem", "Order", "OrderItem"] .standard = .ok text) ∧
    ∃ context reordered, run orders [] = .ok context ∧
      run ⟨orders.definitions.reverse⟩ [] = .ok reordered ∧
      (recordsOf reordered.declarations).Perm (recordsOf context.declarations) ∧
      ∀ name, name ∈ reordered.enumNames ↔ name ∈ context.enumNames := by
  obtain ⟨hselection, hnames, hperm⟩ := run_independent orders
  have hitem : orders.select ["OrderItem"] = .ok (orders.definitions.drop 1) := rfl
  have hboth : orders.select ["Order", "OrderItem"] = .ok orders.definitions := rfl
  refine ⟨hselection ["OrderItem"] _ hitem, ?_, ?_⟩
  · refine hnames ["Order", "OrderItem"] ["OrderItem", "Order", "OrderItem"] _ hboth ?_ .standard
    intro name
    simp only [List.mem_cons, List.not_mem_nil, or_false]
    tauto
  · exact hperm ⟨orders.definitions.reverse⟩ (List.reverse_perm _) [] _ (select_nil orders)

end Emission

end SchemaTypes
