import SchemaTypes.Schema.Node

/-!
# Descriptions

The documentation of a node is its description and its example. An example of an array or an object
stands in a fenced block; one of a text, an integer or a truth value stands on the line of its
label. Other types only get the label.

## Main definitions

* `Emission.describe`: the documentation text of a node
-/

namespace SchemaTypes

namespace Emission

open Schema

/-- A value as it is displayed: a text without quotes, anything else as JSON. -/
def displayValue : Json.Value → String
  | .text text => text
  | value => value.compact

/-- The example of a node of a type, behind its label. -/
def describeSample (type : Primitive) (sample : Json.Value) : String :=
  match type with
  | .array => "\n```json\n" ++ sample.pretty ++ "\n```"
  | .object => "\n```json\n" ++ sample.pretty ++ "\n```"
  | .string => " \"" ++ displayValue sample ++ "\""
  | .integer => " " ++ displayValue sample
  | .boolean => " " ++ displayValue sample
  | _ => ""

/-- The documentation text of a node. It starts with a line break, which is not part of the comment
made of it; a text with nothing else makes no comment. -/
def describe (node : Node) : String :=
  let description :=
    match node.description with
    | some text => text ++ "\n"
    | none => ""
  let sample :=
    match node.sample with
    | some value => "\nExample:" ++ describeSample node.type value
    | none => ""
  "\n" ++ description ++ sample

end Emission

end SchemaTypes
