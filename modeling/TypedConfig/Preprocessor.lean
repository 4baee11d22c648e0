/-
# Rewriting nodes before they are decoded

A preprocessor may put another node in the place of one. Preprocessors run in
order, each on what the one before left; they see one node at a time, so the
children of a node are rewritten only when they are decoded themselves.

Key definitions: `Preprocessor`, `Preprocessor.rewrite?`, `Preprocessor.run`.
-/
import TypedConfig.Node

namespace TypedConfig

/-- The node to put in place of another, or nothing to leave it. -/
abbrev Preprocessor := Node → Option Node

namespace Preprocessor

/-- What the preprocessors make of a node; nothing if all of them leave it. -/
def rewrite? (ps : List Preprocessor) (node : Node) : Option Node :=
  ps.foldl (fun current p => (p (current.getD node)).or current) none

/-- The node after all preprocessors have seen it. -/
def run (ps : List Preprocessor) (node : Node) : Node := (rewrite? ps node).getD node

end Preprocessor
end TypedConfig
