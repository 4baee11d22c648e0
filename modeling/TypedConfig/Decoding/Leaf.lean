/-
# Decoding of leaves

Texts are read as the leaf that is asked for, without the blanks around them
where the leaf is a number or a truth value.

Key definitions: `decodeLeaf`.
-/
import TypedConfig.Decoder
import TypedConfig.Number.Decimal
import TypedConfig.Text.Blank

namespace TypedConfig

variable {α : Type}

/-- The whole number that a node writes. -/
def decodeWhole (shape : String) (node : Node) : Outcome Int64 :=
  match node with
  | .long value _ => .ok value
  | .string value _ =>
    match Number.readInt64 (Text.trim value.toList) with
    | some k => .ok k
    | none => .fail (.ofValue node shape)
  | _ => .fail (.ofKind node shape)

/-- The double that a node writes. A numeral beyond the range of doubles is refused, but
infinity may be spelled out. -/
def decodeDouble (shape : String) (node : Node) : Outcome Double :=
  match node with
  | .double value _ => .ok value
  | .long value _ => .ok (.ofInt64 value)
  | .string value _ =>
    match Number.readDouble (Text.trim value.toList) with
    | some x =>
      if x.isFinite || !value.toList.any Text.isDigit then .ok x
      else .fail (.ofValue node shape)
    | none => .fail (.ofValue node shape)
  | _ => .fail (.ofKind node shape)

/-- The truth value that a node writes, in any ASCII letter case. -/
def decodeBoolean (shape : String) (node : Node) : Outcome Bool :=
  match node with
  | .boolean value _ => .ok value
  | .string value _ =>
    match (Text.trim value.toList).map Text.asciiLower with
    | ['t', 'r', 'u', 'e'] => .ok true
    | ['f', 'a', 'l', 's', 'e'] => .ok false
    | _ => .fail (.ofValue node shape)
  | _ => .fail (.ofKind node shape)

/-- Decodes a defined node that is not null as a leaf; `shape` is the leaf's name for
messages. -/
def decodeLeaf (kind : Leaf) (shape : String) (node : Node) : Outcome (Value α) :=
  match kind with
  | .string =>
    match node.text? with
    | some text => .ok (.string text)
    | none => .fail (.ofKind node shape)
  | .long => (decodeWhole shape node).map .long
  | .int =>
    match decodeWhole shape node with
    | .ok k => if Number.fitsInt32 k.toInt then .ok (.long k) else .fail (.ofValue node shape)
    | .error failures => .error failures
  | .double => (decodeDouble shape node).map .double
  | .boolean => (decodeBoolean shape node).map .boolean
  | .path =>
    match node with
    | .string value _ => .ok (.path ⟨value⟩)
    | _ => .fail (.ofKind node shape)
  | .enum _ constants =>
    match node with
    | .string value _ =>
      match Shape.constant? constants value with
      | some constant => .ok (.enum constant)
      | none => .fail (.ofValue node shape)
    | _ => .fail (.ofKind node shape)
  | .named _ => .fail (.noDecoder shape)

end TypedConfig
