/-
# Events of YAML

The tokens of a text are read as a row of events: a scalar, a reference to an
anchor, and the beginning and the end of each sequence, mapping, document and
stream.

Key definitions: `Event`.
-/
import TypedConfig.Yaml.Token

namespace TypedConfig
namespace Yaml

/-- A piece of structure. What has content begins at a mark. -/
inductive Event where
  | streamStart
  | streamEnd
  | documentStart
  | documentEnd
  | scalar (mark : Mark) (style : ScalarStyle) (text : String)
  | reference (mark : Mark)
  | sequenceStart (mark : Mark)
  | sequenceEnd
  | mappingStart (mark : Mark)
  | mappingEnd
deriving DecidableEq

end Yaml
end TypedConfig
