/-
# Why a configuration could not be loaded

A failure names one cause. Four kinds wrap the failures of the parts they speak
of, so the failures of one attempt form a forest in which nothing found is
dropped. Each cause has a stable code, a message, and, where it concerns a node,
that node's path and position.

Key definitions: `Failure`, `Failures`, `Failure.message`, `Failures.report`.
-/
import TypedConfig.Node
import TypedConfig.NonEmpty

namespace TypedConfig

/-- One cause of failure. -/
inductive Failure where
  /-- Nothing is there and the field has no default. -/
  | missingValue
  /-- An explicit null where none is allowed. -/
  | nullNotAllowed (path : String) (position : Position)
  /-- No decoder of the registry supports the shape. -/
  | noDecoder (shape : String)
  /-- No decoder of the registry supports the record. -/
  | noRecordDecoder (shape : String)
  /-- A node of this kind can never be decoded as the shape. -/
  | wrongKind (nodeType path : String) (position : Position) (shape : String)
  /-- The kind of node is right, but its value is not one of the shape. -/
  | badValue (shape value path : String) (position : Position)
  /-- A collection cannot be filled from a node of this kind. -/
  | notACollection (collection nodeType path : String) (position : Position)
  /-- Elements of a collection failed. -/
  | elements (collection path : String) (failures : NonEmpty Failure)
  /-- A field, or the value of a map entry, failed. -/
  | field (name : String) (failures : NonEmpty Failure)
  /-- Fields of a record failed. -/
  | record (shape : String) (position : Position) (path : String) (failures : NonEmpty Failure)
  /-- The constructor of a record refused its arguments. -/
  | constructorRefused (shape arguments reason : String)
  /-- No source goes by this name. -/
  | unknownSource (identifier : String)
  /-- Several sources failed. -/
  | several (failures : NonEmpty Failure)
  /-- The text of a source is not well formed. -/
  | unparseable (source message : String) (position : Position)
  /-- No parser is registered for the extension of a source. -/
  | noParser (source extension : String)
deriving Inhabited

/-- The failures of one attempt, in the order of the parts that failed. -/
abbrev Failures := NonEmpty Failure

namespace Failure

/-! ### Failures about a node -/

/-- The failure of a node whose kind the shape does not admit. -/
def ofKind (node : Node) (shape : String) : Failure :=
  .wrongKind node.typeName node.pathOrRoot node.position shape

/-- The failure of a node whose value the shape does not admit. -/
def ofValue (node : Node) (shape : String) : Failure :=
  .badValue shape node.textOrType node.pathOrRoot node.position

/-- The failure of an explicit null where none is allowed. -/
def ofNull (node : Node) : Failure := .nullNotAllowed node.pathOrRoot node.position

/-- The failure of a node that cannot fill a collection. -/
def ofCollection (collection : String) (node : Node) : Failure :=
  .notACollection collection node.typeName node.pathOrRoot node.position

/-! ### What is said of a failure -/

/-- The stable code: subsystem 1 is decoding, subsystem 2 is sources. -/
def code : Failure → String
  | .missingValue => "H-1-1"
  | .nullNotAllowed .. => "H-1-2"
  | .noDecoder _ => "H-1-3"
  | .noRecordDecoder _ => "H-1-4"
  | .wrongKind .. => "H-1-5"
  | .badValue .. => "H-1-6"
  | .notACollection .. => "H-1-7"
  | .elements .. => "H-1-8"
  | .field .. => "H-1-9"
  | .record .. => "H-1-10"
  | .constructorRefused .. => "H-1-11"
  | .unknownSource _ => "H-2-1"
  | .several _ => "H-2-2"
  | .unparseable .. => "H-2-3"
  | .noParser .. => "H-2-4"

/-- The name of the kind of failure in the machine-readable form. -/
def kindName : Failure → String
  | .missingValue => "MissingValue"
  | .nullNotAllowed .. => "NullValueForNonNullField"
  | .noDecoder _ => "NoDecoderFound"
  | .noRecordDecoder _ => "NoStructuredDecoderFound"
  | .wrongKind .. => "DecodeError"
  | .badValue .. => "ConversionFailure"
  | .notACollection .. => "UnsupportedCollectionShape"
  | .elements .. => "CollectionElementErrors"
  | .field .. => "FieldFailure"
  | .record .. => "StructuredDecodeFailure"
  | .constructorRefused .. => "InvalidConstructorArguments"
  | .unknownSource _ => "UnknownSource"
  | .several _ => "MultipleFailures"
  | .unparseable .. => "UnparseableSource"
  | .noParser .. => "NoParserFound"

/-- The failures that a wrapping kind holds. -/
def children? : Failure → Option Failures
  | .elements _ _ failures | .field _ failures | .record _ _ _ failures | .several failures =>
    some failures
  | _ => none

/-- The position of the node or the text at fault, for the kinds that have one. -/
def position? : Failure → Option Position
  | .nullNotAllowed _ position | .wrongKind _ _ position _ | .badValue _ _ _ position
  | .notACollection _ _ _ position | .record _ position _ _ | .unparseable _ _ position =>
    some position
  | _ => none

/-- The path of the node at fault, for the kinds that have one. -/
def path? : Failure → Option String
  | .nullNotAllowed path _ | .wrongKind _ path _ _ | .badValue _ _ path _
  | .notACollection _ _ path _ | .elements _ path _ | .record _ _ path _ => some path
  | _ => none

/-- What went wrong, in one line. -/
def message : Failure → String
  | .missingValue => "Missing value"
  | .nullNotAllowed path _ =>
    "Null value at " ++ path ++ " cannot be used for a non-null field"
  | .noDecoder shape => "No decoder found for " ++ shape
  | .noRecordDecoder shape => "No structured decoder found for record " ++ shape
  | .wrongKind nodeType path _ shape =>
    "Could not decode " ++ nodeType ++ " at " ++ path ++ " as " ++ shape
  | .badValue shape value path _ =>
    "Could not convert '" ++ value ++ "' at " ++ path ++ " to " ++ shape
  | .notACollection collection nodeType path _ =>
    "Could not populate a " ++ collection ++ " from " ++ nodeType ++ " at " ++ path
  | .elements collection path _ => collection ++ " at " ++ path ++ " has invalid elements"
  | .field name _ => "Field '" ++ name ++ "' could not be decoded"
  | .record shape _ path _ => "Could not decode " ++ shape ++ " at " ++ path
  | .constructorRefused shape arguments reason =>
    "Could not construct " ++ shape ++ " from " ++ arguments ++ ": " ++ reason
  | .unknownSource identifier => "Could not find config source " ++ identifier
  | .several failures => natText failures.size ++ " config sources could not be resolved"
  | .unparseable source message _ => "Could not parse " ++ source ++ ": " ++ message
  | .noParser source extension =>
    "No parser registered for extension '" ++ extension ++ "' of " ++ source

/-- The message, followed by the position where one is known. -/
def description (failure : Failure) : String :=
  match failure.position? with
  | some (.at line column source) =>
    failure.message ++ " (" ++ (Position.at line column source).text ++ ")"
  | _ => failure.message

end Failure
end TypedConfig
