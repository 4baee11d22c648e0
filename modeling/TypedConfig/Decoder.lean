/-
# Decoders

A decoder claims the shapes that it can decode, with a priority. The built-in
decoders each claim one kind of shape. An application adds decoders of its own,
which may hand nodes back to the decoding that they are part of.

Key definitions: `Engine`, `CustomDecoder`, `Builtin`, `Decoder`.
-/
import TypedConfig.Outcome
import TypedConfig.Shape

namespace TypedConfig

/-- The place in a decoding at which a value is made: the numbers of the parts on the
way down, the innermost first. -/
abbrev Site := List Nat

/-- What a decoder may ask of the decoding that it is part of. -/
structure Engine (α : Type) where
  /-- Decodes a node with the decoder for the shape. -/
  decode : Site → Node → Shape α → Outcome (Value α)
  /-- The child of a map node that holds the field. -/
  resolveField : Node → String → Node
  /-- The node after all preprocessors. -/
  preprocess : Node → Node

/-- A decoder of the application. -/
structure CustomDecoder (α : Type) where
  name : String
  supports : Shape α → Bool
  /-- Of the decoders that support a shape, one of the highest priority is taken. -/
  priority : Int32
  /-- Whether null and absent nodes are dealt with before the decoder sees them. -/
  guardsNull : Bool
  run : Engine α → Site → Node → Shape α → Outcome (Value α)

/-- The built-in decoders. -/
inductive Builtin where
  | string
  | long
  | int
  | double
  | boolean
  | path
  | enum
  | list
  | set
  | map
  | record
deriving DecidableEq, Inhabited

/-- A decoder of either sort. -/
inductive Decoder (α : Type) where
  | builtin (kind : Builtin)
  | custom (decoder : CustomDecoder α)

variable {α : Type}

/-- Whether the built-in decoder claims the shape. -/
def Builtin.supports : Builtin → Shape α → Bool
  | .string, .leaf .string _ => true
  | .long, .leaf .long _ => true
  | .int, .leaf .int _ => true
  | .double, .leaf .double _ => true
  | .boolean, .leaf .boolean _ => true
  | .path, .leaf .path _ => true
  | .enum, .leaf (.enum ..) _ => true
  | .list, .collection .list .. => true
  | .set, .collection .set .. => true
  | .map, .map .. => true
  | .record, .record .. => true
  | _, _ => false

/-- The built-in decoder of records gives way to every other decoder. -/
def Builtin.priority : Builtin → Int32
  | .record => Int32.minValue
  | _ => 0

/-- Whether the decoder claims the shape. -/
def Decoder.supports (decoder : Decoder α) (shape : Shape α) : Bool :=
  match decoder with
  | .builtin kind => kind.supports shape
  | .custom decoder => decoder.supports shape

/-- The priority among decoders that claim the same shape. -/
def Decoder.priority : Decoder α → Int32
  | .builtin kind => kind.priority
  | .custom decoder => decoder.priority

end TypedConfig
