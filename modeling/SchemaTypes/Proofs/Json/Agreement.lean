import SchemaTypes.Proofs.Json.Written
import Mathlib.Data.List.Forall2

/-!
# Readings of texts and of values that agree

A text is read in place, with a fault for whatever is wrong and a limit to how deep it may nest. The
value that the text writes can be read afterwards, with a cause and without a limit. The two
readings agree if they give the same or both refuse, unless the first one finds the text nested too
deep.

## Main definitions

* `Json.Agrees`: a reading of a text and a reading of a value agree

## Main results

* `Json.Agrees.bind`, `Json.Agrees.mapM`, `Json.Agrees.inside`: readings that are put together
* `Json.Tree.agrees_value`: the value of a node and the value that it writes
-/

namespace SchemaTypes

namespace Json

/-- The reading of a text agrees with a reading of what it writes. Only if `deep` may it fail
because lists and objects nest too deep. -/
inductive Agrees {α : Type} (deep : Prop) : Except Fault α → Except Cause α → Prop
  | same (read : α) : Agrees deep (.ok read) (.ok read)
  | refused {fault : Fault} (cause : Cause) (h : fault.cause ≠ .tooDeep) :
      Agrees deep (.error fault) (.error cause)
  | tooDeep (h : deep) (byte : Nat) (other : Except Cause α) :
      Agrees deep (.error ⟨.tooDeep, byte⟩) other

namespace Agrees

variable {α β : Type} {deep later : Prop} {outcome : Except Fault α} {other : Except Cause α}

theorem mono (h : Agrees deep outcome other) (himp : deep → later) :
    Agrees later outcome other := by
  cases h with
  | same read => exact .same read
  | refused cause hcause => exact .refused cause hcause
  | tooDeep hdeep byte other => exact .tooDeep (himp hdeep) byte other

theorem bind {next : α → Except Fault β} {more : α → Except Cause β}
    (h : Agrees deep outcome other) (hnext : ∀ read, Agrees deep (next read) (more read)) :
    Agrees deep (outcome >>= next) (other >>= more) := by
  cases h with
  | same read => exact hnext read
  | refused cause hcause => exact .refused cause hcause
  | tooDeep hdeep byte other => exact .tooDeep hdeep byte _

/-- A reading that goes on without fail gives what it goes on with. -/
theorem bind_map {next : α → Except Fault β} {f : α → β} (h : Agrees deep outcome other)
    (hnext : ∀ read, next read = .ok (f read)) : Agrees deep (outcome >>= next) (other.map f) := by
  cases h with
  | same read =>
    show Agrees deep (next read) _
    rw [hnext]
    exact .same (f read)
  | refused cause hcause => exact .refused cause hcause
  | tooDeep hdeep byte other => exact .tooDeep hdeep byte _

/-- What reads as a value has no cause to refuse it. -/
theorem bind_ok {next : α → Except Fault β} {value : α} {result : Except Cause β}
    (h : Agrees deep outcome (.ok value)) (hnext : Agrees deep (next value) result) :
    Agrees deep (outcome >>= next) result := by
  cases h with
  | same read => exact hnext
  | tooDeep hdeep byte other => exact .tooDeep hdeep byte result

theorem map (h : Agrees deep outcome other) (f : α → β) :
    Agrees deep (outcome.map f) (other.map f) := by
  cases h with
  | same read => exact .same (f read)
  | refused cause hcause => exact .refused cause hcause
  | tooDeep hdeep byte other => exact .tooDeep hdeep byte _

theorem map_map {γ : Type} (h : Agrees deep outcome other) (f : α → β) (g : β → γ) :
    Agrees deep ((outcome.map f).map g) (other.map fun read => g (f read)) := by
  cases h with
  | same read => exact .same (g (f read))
  | refused cause hcause => exact .refused cause hcause
  | tooDeep hdeep byte other => exact .tooDeep hdeep byte _

theorem max_left {room depth : Nat} (h : Agrees (room < depth) outcome other) (more : Nat) :
    Agrees (room < max depth more) outcome other :=
  h.mono fun hdeep => Nat.lt_of_lt_of_le hdeep (Nat.le_max_left depth more)

theorem max_right {room depth : Nat} (h : Agrees (room < depth) outcome other) (more : Nat) :
    Agrees (room < max more depth) outcome other :=
  h.mono fun hdeep => Nat.lt_of_lt_of_le hdeep (Nat.le_max_right more depth)

/-- Entering a list or an object takes one level. -/
theorem inside {room depth : Nat} (h : Agrees (room - 1 < depth) outcome other) (start : Nat) :
    Agrees (room < depth + 1) (Json.inside room start outcome) other := by
  rw [Json.inside]
  split
  · next hroom => exact .tooDeep (by omega) (start + 1) other
  · next hroom => exact h.mono fun hdeep => by omega

theorem mapM {κ κ' : Type} {read : κ → Except Fault α} {make : κ' → Except Cause α}
    {parts : List κ} {sources : List κ'}
    (h : List.Forall₂ (fun part source => Agrees deep (read part) (make source)) parts sources) :
    Agrees deep (parts.mapM read) (sources.mapM make) := by
  induction h with
  | nil => exact .same []
  | cons hfirst hrest ih =>
    rw [List.mapM_cons, List.mapM_cons]
    exact hfirst.bind fun first => ih.bind fun others => .same (first :: others)

/-- Readings that agree give the same or both refuse, if the text does not nest too deep. -/
theorem cases_of_ne (h : Agrees deep outcome other)
    (hdepth : ∀ byte, outcome ≠ .error ⟨.tooDeep, byte⟩) :
    (∃ read, outcome = .ok read ∧ other = .ok read) ∨
      (∃ fault, outcome = .error fault) ∧ ∃ cause, other = .error cause := by
  cases h with
  | same read => exact .inl ⟨read, rfl, rfl⟩
  | refused cause hcause => exact .inr ⟨⟨_, rfl⟩, cause, rfl⟩
  | tooDeep hdeep byte other => exact absurd rfl (hdepth byte)

/-- A text that nests within the limit is not found too deep. -/
theorem ne_tooDeep (h : Agrees deep outcome other) (hdeep : ¬ deep) (byte : Nat) :
    outcome ≠ .error ⟨.tooDeep, byte⟩ := by
  rintro rfl
  cases h with
  | refused cause hcause => exact hcause rfl
  | tooDeep h => exact hdeep h

end Agrees

/-! ### Values -/

namespace Tree

mutual

/-- **The value of a node** is the value that it writes, as a reader keeps it, if there is room
for it. -/
theorem agrees_value (room : Nat) {value : Value} :
    ∀ {tree : Tree}, tree.written = some value →
      Agrees (room < value.depth) (tree.value room) (.ok value.collected)
  | .absent next, h => by cases h
  | .plain reading checking start stop, h => by
    obtain ⟨scalar, hscalar, rfl⟩ := Option.map_eq_some_iff.mp h
    obtain rfl := toOption_eq_some.mp hscalar
    cases scalar <;> exact .same _
  | .text reading checking start stop, h => by
    obtain ⟨read, hread, rfl⟩ := Option.map_eq_some_iff.mp h
    obtain rfl := toOption_eq_some.mp hread
    exact .same _
  | .list start items ending, h => by
    cases ending with
    | closed stop =>
      obtain ⟨values, hvalues, rfl⟩ := Option.map_eq_some_iff.mp h
      rw [Tree.value, Value.depth, Value.collected]
      refine Agrees.inside ((agrees_values (room - 1) hvalues).bind_ok ?_) start
      exact .same _
    | _ => cases h
  | .object start entries ending, h => by
    cases ending with
    | closed stop =>
      obtain ⟨values, hvalues, rfl⟩ := Option.map_eq_some_iff.mp h
      rw [Tree.value, Value.depth, Value.collected]
      refine Agrees.inside ((agrees_valueEntries (room - 1) hvalues).bind_ok ?_) start
      exact .same _
    | _ => cases h

theorem agrees_values (room : Nat) {values : List Value} :
    ∀ {items : List Tree}, writtenItems items = some values →
      Agrees (room < Value.depthItems values) (Tree.values room items)
        (.ok (Value.collectedItems values))
  | [], h => by
    obtain rfl := Option.some.inj h
    exact .same []
  | item :: rest, h => by
    obtain ⟨first, hfirst, h⟩ := Option.bind_eq_some_iff.mp h
    obtain ⟨others, hothers, h⟩ := Option.bind_eq_some_iff.mp h
    obtain rfl := Option.some.inj h
    rw [Tree.values, Value.depthItems, Value.collectedItems]
    refine ((agrees_value room hfirst).max_left _).bind_ok ?_
    refine ((agrees_values room hothers).max_right _).bind_ok ?_
    exact .same _

theorem agrees_valueEntries (room : Nat) {values : List (String × Value)} :
    ∀ {entries : List (Key × Tree)}, writtenEntries entries = some values →
      Agrees (room < Value.depthEntries values) (valueEntries room entries)
        (.ok (Value.collectedEntries values))
  | [], h => by
    obtain rfl := Option.some.inj h
    exact .same []
  | (key, tree) :: rest, h => by
    obtain ⟨name, hname, h⟩ := Option.bind_eq_some_iff.mp h
    obtain ⟨first, hfirst, h⟩ := Option.bind_eq_some_iff.mp h
    obtain ⟨others, hothers, h⟩ := Option.bind_eq_some_iff.mp h
    obtain rfl := Option.some.inj h
    rw [valueEntries, toOption_eq_some.mp hname, Value.depthEntries, Value.collectedEntries]
    refine ((agrees_value room hfirst).max_left _).bind_ok ?_
    refine ((agrees_valueEntries room hothers).max_right _).bind_ok ?_
    exact .same _

end

end Tree

end Json

end SchemaTypes
