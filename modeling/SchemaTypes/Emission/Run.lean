import SchemaTypes.Emission.Definition
import SchemaTypes.Schema.Document

/-!
# A run over a document

## Main definitions

* `Emission.run`: the declarations of the definitions that are selected
* `Emission.generate`: their source file
-/

namespace SchemaTypes

namespace Emission

open Schema TypeScript

/-- The context after the definitions, in order. -/
def emitAll (definitions : List (String × Node)) : Context :=
  definitions.foldl (fun context definition =>
    emitDefinition context definition.1 definition.2) .empty

/-- The declarations of the definitions with the given names, all of them if none is given. Fails
with the first name that the document does not define. -/
def run (document : Document) (names : List String) : Except String Context :=
  (document.select names).map emitAll

/-- The source file for the definitions with the given names. -/
def generate (document : Document) (names : List String) (options : RenderOptions) :
    Except String String :=
  (run document names).map fun context => context.render options

end Emission

end SchemaTypes
