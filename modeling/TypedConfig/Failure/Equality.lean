/-
# Equality of failures

Two failures are equal when they are of one kind and agree in everything they
say, the failures inside them included.

Key definitions: `Failure.equals`, `Failures.equals`.
-/
import TypedConfig.Failure

namespace TypedConfig
namespace Failure

mutual

/-- Equality of failures. -/
def equals : Failure → Failure → Bool
  | .missingValue, .missingValue => true
  | .nullNotAllowed path position, .nullNotAllowed path' position' =>
    path == path' && position == position'
  | .noDecoder shape, .noDecoder shape' => shape == shape'
  | .noRecordDecoder shape, .noRecordDecoder shape' => shape == shape'
  | .wrongKind nodeType path position shape, .wrongKind nodeType' path' position' shape' =>
    nodeType == nodeType' && path == path' && position == position' && shape == shape'
  | .badValue shape value path position, .badValue shape' value' path' position' =>
    shape == shape' && value == value' && path == path' && position == position'
  | .notACollection kind nodeType path position, .notACollection kind' nodeType' path' position' =>
    kind == kind' && nodeType == nodeType' && path == path' && position == position'
  | .elements kind path ⟨first, rest⟩, .elements kind' path' ⟨first', rest'⟩ =>
    kind == kind' && path == path' && first.equals first' && allEqual rest rest'
  | .field name ⟨first, rest⟩, .field name' ⟨first', rest'⟩ =>
    name == name' && first.equals first' && allEqual rest rest'
  | .record shape position path ⟨first, rest⟩, .record shape' position' path' ⟨first', rest'⟩ =>
    shape == shape' && position == position' && path == path' && first.equals first' &&
      allEqual rest rest'
  | .constructorRefused shape arguments reason, .constructorRefused shape' arguments' reason' =>
    shape == shape' && arguments == arguments' && reason == reason'
  | .unknownSource identifier, .unknownSource identifier' => identifier == identifier'
  | .several ⟨first, rest⟩, .several ⟨first', rest'⟩ => first.equals first' && allEqual rest rest'
  | .unparseable source message position, .unparseable source' message' position' =>
    source == source' && message == message' && position == position'
  | .noParser source extension, .noParser source' extension' =>
    source == source' && extension == extension'
  | _, _ => false

/-- Equality of two lists of failures, one by one. -/
def allEqual : List Failure → List Failure → Bool
  | [], [] => true
  | a :: as, b :: bs => a.equals b && allEqual as bs
  | _, _ => false

end

end Failure

/-- Equality of failure collections, one by one. -/
def Failures.equals (a b : Failures) : Bool := Failure.allEqual a.toList b.toList

end TypedConfig
