/-!
# Keyed entries in order of arrival

A list of keyed entries keeps each key where it first stood. Writing a key again changes its value
and moves nothing.

## Main definitions

* `Entries.put`: writes an entry
* `Entries.collect`: the entries that writing pairs one after another leaves
* `Entries.find?`: the value of a key
-/

namespace SchemaTypes

namespace Entries

variable {α : Type}

/-- Writes an entry: in place if the key is there, at the end if it is not. -/
def put (key : String) (value : α) : List (String × α) → List (String × α)
  | [] => [(key, value)]
  | (k, v) :: rest => if k = key then (k, value) :: rest else (k, v) :: put key value rest

/-- The entries that writing the pairs one after another leaves. -/
def collect (pairs : List (String × α)) : List (String × α) :=
  pairs.foldl (fun entries pair => put pair.1 pair.2 entries) []

/-- The value of a key. -/
def find? (key : String) : List (String × α) → Option α
  | [] => none
  | (k, v) :: rest => if k = key then some v else find? key rest

@[simp] theorem find?_put_self (key : String) (value : α) (entries : List (String × α)) :
    find? key (put key value entries) = some value := by
  induction entries with
  | nil => simp [put, find?]
  | cons e rest ih =>
    by_cases h : e.1 = key <;> simp [put, find?, h, ih]

theorem find?_put_of_ne {key other : String} (h : other ≠ key) (value : α)
    (entries : List (String × α)) : find? other (put key value entries) = find? other entries := by
  induction entries with
  | nil => simp [put, find?, Ne.symm h]
  | cons e rest ih =>
    by_cases hk : e.1 = key
    · simp [put, find?, hk, Ne.symm h]
    · by_cases ho : e.1 = other
      · simp [put, find?, ho, h]
      · simp [put, find?, hk, ho, ih]

end Entries

end SchemaTypes
