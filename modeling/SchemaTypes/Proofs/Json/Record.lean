import SchemaTypes.Json.Record

/-!
# What reading a record keeps

A record is read field after field, as an object or as a list. An entry of an object fills the field
that its key names, unless the field has been filled before. What holds of the empty record and is
kept by every field that is filled in holds of every record that is read.

## Main results

* `Json.Record.readEntries_skip`, `readEntries_again`, `readEntries_fill`: one entry of an object
* `Json.Record.readObject_induction`, `Json.Record.readList_induction`: the two ways to write a
  record
* `Json.Record.readEntries_closed`, `Json.Record.readItems_closed`: what is read has its end
-/

namespace SchemaTypes

namespace Json

section Outcome

variable {ε α β : Type} {outcome : Except ε α} {result : β}

/-- A reading that goes on has read what it goes on with. -/
theorem bind_eq_ok {next : α → Except ε β} :
    outcome >>= next = .ok result ↔ ∃ read, outcome = .ok read ∧ next read = .ok result := by
  cases outcome with
  | error fault => exact ⟨fun h => (nomatch h), fun ⟨_, h, _⟩ => (nomatch h)⟩
  | ok read =>
    refine ⟨fun h => ⟨read, rfl, h⟩, fun ⟨other, h, hnext⟩ => ?_⟩
    obtain rfl := Except.ok.inj h
    exact hnext

theorem map_eq_ok {f : α → β} :
    outcome.map f = .ok result ↔ ∃ read, outcome = .ok read ∧ f read = result := by
  cases outcome with
  | error fault => exact ⟨fun h => (nomatch h), fun ⟨_, h, _⟩ => (nomatch h)⟩
  | ok read => simp [Except.map]

theorem inside_eq_ok {room start : Nat} {body : Except Fault β} :
    inside room start body = .ok result ↔ room ≠ 0 ∧ body = .ok result := by
  rw [inside]
  split
  · next hroom => exact ⟨fun h => (nomatch h), fun h => absurd hroom h.1⟩
  · next hroom => exact ⟨fun h => ⟨hroom, h⟩, fun h => h.2⟩

end Outcome

namespace Record

variable {φ σ κ : Type} {record : Record φ σ κ} {motive : σ → Prop}
  {sofar result : σ}

/-! ### One entry of an object -/

section Entry

variable [DecidableEq φ] {seen : List φ} {key : Key} {name : String} {field : φ}

/-- A key that names no field is passed over. -/
theorem readEntries_skip (hname : key.reading = .ok name) (hfield : record.ofKey? name = none)
    (first : Bool) (ending : ObjectEnd) (part : κ) (rest : List (Key × κ)) :
    record.readEntries seen sofar first ending ((key, part) :: rest) =
      (record.tree part).check >>= fun _ => record.readEntries seen sofar false ending rest := by
  have hclaim : record.claim seen key = .ok none := by
    simp [claim, hname, hfield, bind, Except.bind]
  rw [readEntries, hclaim]
  rfl

/-- A key that names a field again is refused. -/
theorem readEntries_again (hname : key.reading = .ok name)
    (hfield : record.ofKey? name = some field) (hseen : field ∈ seen) (first : Bool)
    (ending : ObjectEnd) (part : κ) (rest : List (Key × κ)) :
    record.readEntries seen sofar first ending ((key, part) :: rest) =
      .error (record.repeated key field) := by
  have hclaim : record.claim seen key = .error (record.repeated key field) := by
    simp [claim, hname, hfield, hseen, bind, Except.bind]
  rw [readEntries, hclaim]
  rfl

/-- A key that names a field for the first time fills it. -/
theorem readEntries_fill (hname : key.reading = .ok name)
    (hfield : record.ofKey? name = some field) (hseen : field ∉ seen) (first : Bool)
    (ending : ObjectEnd) (part : κ) (rest : List (Key × κ)) :
    record.readEntries seen sofar first ending ((key, part) :: rest) =
      record.fill sofar field part >>= fun filled =>
        record.readEntries (field :: seen) filled false ending rest := by
  have hclaim : record.claim seen key = .ok (some field) := by
    simp [claim, hname, hfield, hseen, bind, Except.bind]
  rw [readEntries, hclaim]
  rfl

/-- An object with one entry that names a field has that field filled. -/
theorem readObject_singleton (hname : key.reading = .ok name)
    (hfield : record.ofKey? name = some field) (stop : Nat) (part : κ) :
    record.readObject (.closed stop) [(key, part)] = record.fill record.empty field part := by
  rw [readObject, readEntries_fill hname hfield List.not_mem_nil]
  cases record.fill record.empty field part <;> rfl

end Entry

/-! ### All fields -/

theorem readEntries_induction [DecidableEq φ] {entries : List (Key × κ)}
    (fill : ∀ entry ∈ entries, ∀ sofar field filled, motive sofar →
      record.fill sofar field entry.2 = .ok filled → motive filled)
    {seen : List φ} {first : Bool} {ending : ObjectEnd} (hsofar : motive sofar)
    (h : record.readEntries seen sofar first ending entries = .ok result) : motive result := by
  induction entries generalizing seen sofar first with
  | nil =>
    obtain ⟨_, -, h⟩ := bind_eq_ok.mp h
    exact Except.ok.inj h ▸ hsofar
  | cons entry rest ih =>
    have hrest := fun other hother => fill other (List.mem_cons_of_mem entry hother)
    obtain ⟨claimed, -, h⟩ := bind_eq_ok.mp h
    cases claimed with
    | none =>
      obtain ⟨_, -, h⟩ := bind_eq_ok.mp h
      exact ih hrest hsofar h
    | some field =>
      obtain ⟨filled, hfilled, h⟩ := bind_eq_ok.mp h
      exact ih hrest (fill entry List.mem_cons_self sofar field filled hsofar hfilled) h

/-- **A record that is written as an object** has what every field keeps. -/
theorem readObject_induction [DecidableEq φ] {entries : List (Key × κ)} {ending : ObjectEnd}
    (h : record.readObject ending entries = .ok result) (empty : motive record.empty)
    (fill : ∀ entry ∈ entries, ∀ sofar field filled, motive sofar →
      record.fill sofar field entry.2 = .ok filled → motive filled) : motive result :=
  readEntries_induction fill empty h

theorem readItems_induction {parts : List κ}
    (fill : ∀ part ∈ parts, ∀ sofar field filled, motive sofar →
      record.fill sofar field part = .ok filled → motive filled)
    {fields : List φ} {ending : ListEnd} (hsofar : motive sofar)
    (h : record.readItems sofar ending fields parts = .ok result) : motive result := by
  induction parts generalizing sofar fields with
  | nil =>
    cases fields with
    | nil =>
      obtain ⟨_, -, rfl⟩ := map_eq_ok.mp h
      exact hsofar
    | cons field fields => cases h
  | cons part rest ih =>
    cases fields with
    | nil => cases h
    | cons field fields =>
      obtain ⟨filled, hfilled, h⟩ := bind_eq_ok.mp h
      exact ih (fun other hother => fill other (List.mem_cons_of_mem part hother))
        (fill part List.mem_cons_self sofar field filled hsofar hfilled) h

/-- **A record that is written as a list** has what every field keeps. -/
theorem readList_induction {parts : List κ} {ending : ListEnd}
    (h : record.readList ending parts = .ok result) (empty : motive record.empty)
    (fill : ∀ part ∈ parts, ∀ sofar field filled, motive sofar →
      record.fill sofar field part = .ok filled → motive filled) : motive result :=
  readItems_induction fill empty h

/-! ### Endings -/

theorem endObject_closed [DecidableEq φ] {seen : List φ} {first : Bool} {ending : ObjectEnd}
    (h : record.endObject seen first ending = .ok ()) : ∃ stop, ending = .closed stop := by
  cases ending with
  | closed stop => exact ⟨stop, rfl⟩
  | unclosed next | dangling next => cases h
  | keyOnly key =>
    obtain ⟨_, -, h⟩ := bind_eq_ok.mp h
    cases h

/-- An object that is read as a record has its brace. -/
theorem readEntries_closed [DecidableEq φ] {entries : List (Key × κ)} {seen : List φ} {first : Bool}
    {ending : ObjectEnd} (h : record.readEntries seen sofar first ending entries = .ok result) :
    ∃ stop, ending = .closed stop := by
  induction entries generalizing seen sofar first with
  | nil =>
    obtain ⟨_, hending, -⟩ := bind_eq_ok.mp h
    exact endObject_closed hending
  | cons entry rest ih =>
    obtain ⟨claimed, -, h⟩ := bind_eq_ok.mp h
    cases claimed with
    | none =>
      obtain ⟨_, -, h⟩ := bind_eq_ok.mp h
      exact ih h
    | some field =>
      obtain ⟨filled, -, h⟩ := bind_eq_ok.mp h
      exact ih h

/-- A list that is read as a record has its bracket. -/
theorem readItems_closed {parts : List κ} {fields : List φ} {ending : ListEnd}
    (h : record.readItems sofar ending fields parts = .ok result) :
    ∃ stop, ending = .closed stop := by
  induction parts generalizing sofar fields with
  | nil =>
    cases fields with
    | nil =>
      cases ending with
      | closed stop => exact ⟨stop, rfl⟩
      | _ => cases h
    | cons field fields => cases h
  | cons part rest ih =>
    cases fields with
    | nil => cases h
    | cons field fields =>
      obtain ⟨filled, -, h⟩ := bind_eq_ok.mp h
      exact ih h

end Record

end Json

end SchemaTypes
