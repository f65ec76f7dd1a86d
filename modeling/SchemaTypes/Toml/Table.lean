import SchemaTypes.Toml.Value

/-!
# Tables

The entries of a document arrive one after another: headers that open a table, and keys with values,
each behind a path of keys. A path leads through tables that are there already or come about on the
way. What is complete cannot be extended: an inline table, a list in brackets, and, by a dotted key,
a table that has a header of its own.

## Main definitions

* `Toml.descend`: changes the entries at the end of a path
* `Toml.insertValue`: adds a key with a value
* `Toml.openTable`, `Toml.openListTable`: open the table of a header
-/

namespace SchemaTypes

namespace Toml

/-- The entry of a key. -/
def lookup? (key : String) (entries : List Entry) : Option Entry :=
  entries.find? fun entry => entry.1.text = key

/-- Replaces the value of a key and the bytes it was read from. -/
def replaceValue (key : String) (value : Value) (entries : List Entry) : List Entry :=
  entries.map fun entry =>
    if entry.1.text = key then (entry.1, entry.2.1, value) else entry

/-- The entries without a key. -/
def removeKey (key : String) (entries : List Entry) : List Entry :=
  entries.filter fun entry => entry.1.text ≠ key

/-- Changes the entries at the end of a path. A table that comes about on the way stands where the
key stands that made it. A header passes through the last table of a list of tables, a dotted key
does not. -/
def descend (byDots : Bool) (change : List Entry → Option (List Entry)) :
    List Key → List Entry → Option (List Entry)
  | [], entries => change entries
  | key :: path, entries =>
    match lookup? key.text entries with
    | none => do
      let inner ← descend byDots change path []
      let origin := if byDots then Origin.dotted else .implied
      some (entries ++ [(key, key.span, .table origin inner)])
    | some (_, _, .table origin inner) =>
      if origin = .inline ∨ (byDots ∧ origin = .header) then none
      else do
        let changed ← descend byDots change path inner
        some (replaceValue key.text (.table origin changed) entries)
    | some (_, _, .array true items) =>
      if byDots then none
      else
        match items.reverse with
        | (span, .table origin inner) :: before => do
          let changed ← descend byDots change path inner
          let items := ((span, Value.table origin changed) :: before).reverse
          some (replaceValue key.text (.array true items) entries)
        | _ => none
    | some _ => none

/-- Adds a key with a value. The key must be new. -/
def insertNew (key : Key) (span : Span) (value : Value) (entries : List Entry) :
    Option (List Entry) :=
  match lookup? key.text entries with
  | none => some (entries ++ [(key, span, value)])
  | some _ => none

/-- Adds a value behind a dotted key, whose last part is apart. -/
def insertValue (path : List Key) (key : Key) (span : Span) (value : Value)
    (entries : List Entry) : Option (List Entry) :=
  descend true (insertNew key span value) path entries

/-- Opens the table of a header. It must be new, or implied by an earlier header, whose tables it
keeps. -/
def openTable (key : Key) (span : Span) (entries : List Entry) : Option (List Entry) :=
  match lookup? key.text entries with
  | none => some (entries ++ [(key, span, .table .header [])])
  | some (_, _, .table .implied inner) =>
    some (removeKey key.text entries ++ [(key, span, .table .header inner)])
  | some _ => none

/-- Opens one more table of a list of tables. -/
def openListTable (key : Key) (span : Span) (entries : List Entry) : Option (List Entry) :=
  let table := (span, Value.table .header [])
  match lookup? key.text entries with
  | none => some (entries ++ [(key, span, .array true [table])])
  | some (_, _, .array true items) =>
    some (replaceValue key.text (.array true (items ++ [table])) entries)
  | some _ => none

end Toml

end SchemaTypes
