/-
# YAML documents

The first document of a text is read as a tree. What breaks the rules of YAML is
reported first, wherever in the document it is; then what a tree cannot express.

Key definitions: `Yaml.parse`, `Yaml.documents`.
-/
import TypedConfig.Yaml.Grammar
import TypedConfig.Yaml.Tokenizer
import TypedConfig.Yaml.TreeBuilder

namespace TypedConfig
namespace Yaml

/-- The tree of the first document of a text. -/
def parse (text source : String) : Except ParseError Node :=
  match firstDocument (.ofText text) with
  | .error ⟨fault, mark⟩ => .error (.malformed fault.message (mark.position source))
  | .ok events => buildTree source events

/-- The parser of YAML files. -/
def documents : Parser := ⟨["yml", "yaml"], parse⟩

end Yaml
end TypedConfig
