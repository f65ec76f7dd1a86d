import SchemaTypes.Proofs.Emission.Rewriting
import SchemaTypes.Proofs.TypeScript.Documentation

/-!
# Documentation and code

The descriptions and samples of a document end up in comments. Without them a run goes the same way:
it accepts the same selections and leaves the same declarations, apart from their documentation. In
its text the comments are missing and everything else is there.

## Main results

* `Emission.follows_undocumented`: the declaration of a node without documentation
* `Emission.generate_undocumented`: documentation puts comments into the text of a run
-/

namespace SchemaTypes

namespace Emission

open Schema TypeScript

theorem describe_undocumenting (node : Node) :
    describe (node.rewrite Node.undocumenting) = "\n" := by
  rw [describe, Node.description_rewrite, Node.sample_rewrite]
  rfl

/-- Of a member only the documentation changes. -/
theorem memberOf_undocumenting (owner property : String) (node : Node) :
    memberOf owner property (node.rewrite Node.undocumenting) =
      (memberOf owner property node).undocumented := by
  rw [memberOf, memberType_rewrite Node.keepsNames_undocumenting, describe_undocumenting,
    Node.nullable_rewrite]
  rfl

/-- **The declaration of a node without documentation** is that of the node, without its
documentation. -/
theorem follows_undocumented : Follows Node.undocumenting Declaration.undocumented where
  keepsNames := Node.keepsNames_undocumenting
  record name definition := by
    have hmembers : ((memberSource definition).map (Node.rewriteEntry Node.undocumenting)).map
        (fun entry => memberOf name entry.1 entry.2) =
        ((memberSource definition).map fun entry => memberOf name entry.1 entry.2).map
          RecordMember.undocumented := by
      rw [List.map_map, List.map_map]
      exact List.map_congr_left fun entry _ => memberOf_undocumenting name entry.1 entry.2
    rw [recordOf, recordOf, memberSource_rewrite, hmembers, describe_undocumenting]
    rfl
  enumeration name node := by
    rw [Context.enumOf, Context.enumOf, Node.description_rewrite, Node.enumValues?_rewrite]
    rfl

/-- **Documentation puts comments into the text of a run**, each at the start of a line, and does
nothing else: whether a selection is accepted does not depend on it. -/
theorem generate_undocumented (document : Document) (names : List String)
    (options : RenderOptions) :
    (∃ bare full, generate document.undocumented names options = .ok bare ∧
      generate document names options = .ok full ∧ Code.Commented bare full) ∨
    ∃ missing, generate document.undocumented names options = .error missing ∧
      generate document names options = .error missing := by
  have hselect := Document.select_rewrite Node.undocumenting document names
  rw [generate, generate, run, run, Document.undocumented, hselect]
  cases document.select names with
  | error missing => exact .inr ⟨missing, rfl, rfl⟩
  | ok selected =>
    refine .inl ⟨_, _, rfl, rfl, ?_⟩
    rw [emitAll_rewrite follows_undocumented]
    exact commented_renderDeclarations options (emitAll selected).declarations

/-- An end mark in a description does not end its comment. -/
example :
    generate ⟨[("Pet", { Node.primitive .object with description := some "Not */ closed." })]⟩ []
      .standard = .ok "/** Not *\\/ closed. */\nexport interface Pet \x7b\x7d\n" := by
  decide

end Emission

end SchemaTypes
