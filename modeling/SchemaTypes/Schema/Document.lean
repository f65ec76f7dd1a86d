import SchemaTypes.Schema.Node

/-!
# Documents

A document is its named definitions in the order in which it holds them.

## Main definitions

* `Schema.Document`: named definitions
* `Schema.Document.select`: the definitions with some names, in the order of the document
-/

namespace SchemaTypes

namespace Schema

/-- The named definitions of a document. -/
structure Document where
  definitions : List (String × Node)

namespace Document

/-- Whether a document defines a name. -/
def defines (document : Document) (name : String) : Bool :=
  document.definitions.any fun definition => definition.1 = name

/-- The definition with a name. -/
def find? (document : Document) (name : String) : Option Node :=
  (document.definitions.find? fun definition => definition.1 = name).map Prod.snd

/-- The definitions with the given names, in the order of the document; all of them if no name is
given. Fails with the first name that the document does not define. -/
def select (document : Document) (names : List String) : Except String (List (String × Node)) :=
  match names.find? fun name => !document.defines name with
  | some missing => .error missing
  | none => .ok (document.definitions.filter fun definition =>
      names.isEmpty || names.contains definition.1)

end Document

end Schema

end SchemaTypes
