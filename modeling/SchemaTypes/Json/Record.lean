import SchemaTypes.Json.Read

/-!
# Reading records

A record has named fields. It is written as an object whose keys name fields in any order, or as a
list with one item for each field in order. In an object a field may stand once, and keys that name
no field are skipped with their values.

## Main definitions

* `Json.Record`: what a kind of record is like
* `Json.Record.readObject`, `Json.Record.readList`: the two ways to write a record
* `Json.Tree.refuse`: the fault of a node that is not of the kind wanted
-/

namespace SchemaTypes

namespace Json

/-! ### Nodes of the wrong kind -/

/-- How a diagnostic names a scalar. -/
def Plain.found : Plain → Found
  | null => .null
  | boolean value => .boolean value
  | number (.integer value) => .integer value
  | number (.floating value) => .floating (floatFormat.render value)

/-- The fault of a node that is not of the kind wanted. A scalar is read first and the fault lies
behind it; a list or an object is refused where it starts. -/
def Tree.refuse (wanted : String) : Tree → Fault
  | absent next => next.fault .value .valueWanted
  | plain reading _ _ stop =>
    match reading with
    | .ok scalar => ⟨.wrongKind scalar.found wanted, stop⟩
    | .error fault => fault
  | text reading _ _ stop =>
    match reading with
    | .ok value => ⟨.wrongKind (.text value) wanted, stop⟩
    | .error fault => fault
  | list start _ _ => ⟨.wrongKind .sequence wanted, start⟩
  | object start _ _ => ⟨.wrongKind .map wanted, start⟩

/-- Whether a node is `null`. -/
def Tree.isNull : Tree → Bool
  | plain (.ok .null) _ _ _ => true
  | _ => false

/-- The place of a fault about a node that should not be there. -/
def Tree.place : Tree → Nat
  | absent next => next.place
  | tree => tree.start + 1

/-! ### Records -/

/-- A kind of record with fields of type `φ`, read into values of type `σ` from parts of type
`κ`. -/
structure Record (φ σ κ : Type) where
  /-- what a diagnostic calls the record -/
  wanted : String
  /-- what a diagnostic calls its list form -/
  lengthWanted : String
  fields : List φ
  ofKey? : String → Option φ
  key : φ → String
  /-- the node of a part -/
  tree : κ → Tree
  /-- the record before any field is read -/
  empty : σ
  /-- the record with one more field -/
  fill : σ → φ → κ → Except Fault σ

namespace Record

variable {φ σ κ : Type} [DecidableEq φ]

/-- The fault of a key that names a field for a second time. It lies behind the blanks that follow
the key, and behind the brace if that comes next. -/
def repeated (record : Record φ σ κ) (key : Key) (field : φ) : Fault :=
  let closed := key.next.sight = .mark .closeBrace
  ⟨.repeatedField (record.key field), if closed then key.next.byte + 1 else key.next.byte⟩

/-- The field a key names, if it names one that has not been seen. -/
def claim (record : Record φ σ κ) (seen : List φ) (key : Key) : Except Fault (Option φ) := do
  let name ← key.reading
  match record.ofKey? name with
  | none => .ok none
  | some field => if field ∈ seen then .error (record.repeated key field) else .ok (some field)

/-- How an object of fields ends. `first` tells that it has no entries. -/
def endObject (record : Record φ σ κ) (seen : List φ) (first : Bool) :
    ObjectEnd → Except Fault Unit
  | .keyOnly key => do
    let _ ← record.claim seen key
    .error key.missingColon
  | ending => ending.read first

/-- Reads entries in order. -/
def readEntries (record : Record φ σ κ) (seen : List φ) (sofar : σ) (first : Bool)
    (ending : ObjectEnd) : List (Key × κ) → Except Fault σ
  | [] => do
    record.endObject seen first ending
    .ok sofar
  | (key, part) :: rest => do
    match ← record.claim seen key with
    | none => do
      (record.tree part).check
      readEntries record seen sofar false ending rest
    | some field => do
      let filled ← record.fill sofar field part
      readEntries record (field :: seen) filled false ending rest

/-- Reads a record that is written as an object. -/
def readObject (record : Record φ σ κ) (ending : ObjectEnd) (entries : List (Key × κ)) :
    Except Fault σ :=
  record.readEntries [] record.empty true ending entries

/-- How a list ends behind the item of the last field. -/
def endList : ListEnd → Except Fault Unit
  | .closed _ => .ok ()
  | .unclosed next => .error (next.fault .list .trailingText)
  | .dangling next =>
    let comma := next.sight = .mark .closeBracket
    .error ⟨if comma then .trailingComma else .trailingText, next.place⟩

/-- The fault of a list that ends before its last field, `found` items behind its start. -/
def tooShort (record : Record φ σ κ) (found : Nat) : ListEnd → Fault
  | .closed stop => ⟨.wrongLength found record.lengthWanted, stop⟩
  | .unclosed next => next.fault .list .listEndWanted
  | .dangling next => next.fault .value .trailingComma

/-- Reads items in order, one for each of the fields. -/
def readItems (record : Record φ σ κ) (sofar : σ) (ending : ListEnd) :
    List φ → List κ → Except Fault σ
  | [], [] => (endList ending).map fun _ => sofar
  | [], part :: _ => .error ⟨.trailingText, (record.tree part).place⟩
  | fields, [] => .error (record.tooShort (record.fields.length - fields.length) ending)
  | field :: fields, part :: rest => do
    let filled ← record.fill sofar field part
    readItems record filled ending fields rest

/-- Reads a record that is written as a list. -/
def readList (record : Record φ σ κ) (ending : ListEnd) (items : List κ) : Except Fault σ :=
  record.readItems record.empty ending record.fields items

end Record

end Json

end SchemaTypes
