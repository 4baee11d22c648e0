/-
# The registry of decoders

A registry keeps decoders in the order in which they were registered. For a shape
it picks, among the decoders that claim it, one of the highest priority, and of
several such the one registered first.

Key definitions: `Registry`, `Registry.defaults`, `Registry.register`, `Registry.resolve`.
-/
import TypedConfig.Decoder

namespace TypedConfig

/-- Decoders in order of registration. -/
structure Registry (α : Type) where
  decoders : List (Decoder α)

namespace Registry

variable {α : Type}

/-- The registry with no decoders. -/
def zero : Registry α := ⟨[]⟩

/-- The registry of all built-in decoders. -/
def defaults : Registry α :=
  ⟨[Builtin.string, .long, .int, .double, .boolean, .path, .enum, .list, .set, .map,
    .record].map .builtin⟩

/-- The registry with one more decoder. -/
def register (registry : Registry α) (decoder : Decoder α) : Registry α :=
  ⟨registry.decoders ++ [decoder]⟩

/-- The first of the decoders of highest priority among those that claim the shape. -/
def best (shape : Shape α) : List (Decoder α) → Option (Decoder α)
  | [] => none
  | d :: ds =>
    if d.supports shape then
      match best shape ds with
      | some e => if d.priority < e.priority then some e else some d
      | none => some d
    else best shape ds

/-- The failure of a shape that no decoder claims. -/
def unsupported (shape : Shape α) : Failure :=
  if shape.isRecord then .noRecordDecoder shape.text else .noDecoder shape.text

/-- The decoder for the shape. -/
def resolve (registry : Registry α) (shape : Shape α) : Outcome (Decoder α) :=
  match best shape registry.decoders with
  | some decoder => .ok decoder
  | none => .fail (unsupported shape)

end Registry
end TypedConfig
