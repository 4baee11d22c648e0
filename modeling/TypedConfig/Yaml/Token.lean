/-
# Tokens of YAML

Indentation is part of the tokens: blocks have tokens for their beginning and
their end, and a key has a token in front of it even where none was written.

Key definitions: `ScalarStyle`, `TokenKind`, `Token`, `TokenStream`.
-/
import TypedConfig.Yaml.Fault

namespace TypedConfig
namespace Yaml

/-- How a scalar was written. -/
inductive ScalarStyle where
  | plain
  | singleQuoted
  | doubleQuoted
  | literal
  | folded
deriving DecidableEq, Inhabited

/-- What a token is. -/
inductive TokenKind where
  | streamStart
  | streamEnd
  | versionDirective
  | tagDirective (handle replacement : String)
  | documentStart
  | documentEnd
  | blockSequenceStart
  | blockMappingStart
  | blockEnd
  | flowSequenceStart
  | flowSequenceEnd
  | flowMappingStart
  | flowMappingEnd
  | blockEntry
  | flowEntry
  | key
  | value
  | reference (name : String)
  | anchor (name : String)
  | tag (handle suffix : String)
  | scalar (style : ScalarStyle) (text : String)
deriving DecidableEq, Inhabited

/-- A token and where it begins. -/
structure Token where
  mark : Mark
  kind : TokenKind
deriving DecidableEq, Inhabited

/-- The tokens of a text up to the first fault, if it has one. -/
structure TokenStream where
  tokens : List Token
  fault? : Option Malformed
deriving DecidableEq

end Yaml
end TypedConfig
