/-
# Trees of events

A document that nests properly is a tree of scalars, references, sequences and
mappings. Its meaning is said here by recursion on the tree, without a stack: the
node that it denotes, or the first thing in it that a node cannot express.

Key definitions: `EventTree`, `EventTree.events`, `EventTree.denote`,
`documentEvents`.
-/
import TypedConfig.Yaml.TreeBuilder

namespace TypedConfig
namespace Yaml

/-- A document as a tree. Keys of mappings are trees as well. -/
inductive EventTree where
  | scalar (mark : Mark) (style : ScalarStyle) (text : String)
  | reference (mark : Mark)
  | sequence (mark : Mark) (elements : List EventTree)
  | mapping (mark : Mark) (pairs : List (EventTree × EventTree))

namespace EventTree

/-! ### The events of a tree, in document order -/

mutual

/-- The events of a tree. -/
def events : EventTree → List Event
  | .scalar mark style text => [.scalar mark style text]
  | .reference mark => [.reference mark]
  | .sequence mark elements => .sequenceStart mark :: elementEvents elements ++ [.sequenceEnd]
  | .mapping mark pairs => .mappingStart mark :: pairEvents pairs ++ [.mappingEnd]

/-- The events of the elements of a sequence. -/
def elementEvents : List EventTree → List Event
  | [] => []
  | element :: elements => element.events ++ elementEvents elements

/-- The events of the pairs of a mapping. -/
def pairEvents : List (EventTree × EventTree) → List Event
  | [] => []
  | (key, value) :: pairs => key.events ++ value.events ++ pairEvents pairs

end

/-! ### The node of a tree -/

/-- The key that a tree is, if it does not repeat one of `keys`; `path` is that of the
mapping. -/
def denoteKey (source path : String) (keys : List String) : EventTree → Except ParseError String
  | .scalar mark _ text =>
    if text ∈ keys then .error (.duplicateKey text path (mark.position source)) else .ok text
  | .reference mark =>
    .error (.unsupported "YAML aliases are not supported" (mark.position source))
  | .sequence mark _ | .mapping mark _ =>
    .error (.unsupported "only scalar mapping keys are supported" (mark.position source))

mutual

/-- The node of a tree at a path. -/
def denote (source path : String) : EventTree → Except ParseError Node
  | .scalar mark style text =>
    let place : Place := ⟨mark.position source, path⟩
    .ok (if style = .plain then plainNode text place else .string text place)
  | .reference mark =>
    .error (.unsupported "YAML aliases are not supported" (mark.position source))
  | .sequence mark elements => do
    return .array (← denoteElements source path 0 elements) ⟨mark.position source, path⟩
  | .mapping mark pairs => do
    return .map (← denotePairs source path [] pairs) ⟨mark.position source, path⟩

/-- The nodes of the elements of a sequence at `path`, of which the first is at
`index`. -/
def denoteElements (source path : String) (index : Nat) :
    List EventTree → Except ParseError (List Node)
  | [] => .ok []
  | element :: elements => do
    let node ← denote source (elementPath path index) element
    return node :: (← denoteElements source path (index + 1) elements)

/-- The entries of a mapping at `path`, which come after those with the given keys. -/
def denotePairs (source path : String) (keys : List String) :
    List (EventTree × EventTree) → Except ParseError (Entries Node)
  | [] => .ok []
  | (key, value) :: pairs => do
    let key ← denoteKey source path keys key
    let node ← denote source (childPath path key) value
    return (key, node) :: (← denotePairs source path (keys ++ [key]) pairs)

end

end EventTree

/-- The events of a text with one document. -/
def documentEvents (tree : EventTree) : List Event :=
  .streamStart :: .documentStart :: tree.events ++ [.documentEnd]

end Yaml
end TypedConfig
