/-
# The arguments of a record constructor

Decoding a record binds its fields, and the constructor reads them. A field that
has a default and is absent from the source is not bound: reading it yields the
default.

Key definitions: `Declaration`, `Arguments`, `Arguments.value?`, `Arguments.materialize`,
`ConstructError`.
-/
import TypedConfig.Value.Extraction
import TypedConfig.Value.Text

namespace TypedConfig

/-- A declared field as a constructor sees it: its name and its default. -/
structure Declaration (α : Type) where
  name : String
  default? : Option (Value α)

/-- The declared fields of a record with the values bound to some of them. -/
structure Arguments (α : Type) where
  declared : List (Declaration α)
  bound : Entries (Value α)

/-- Why a constructor refused its arguments. -/
inductive ConstructError where
  | unknownField (name : String)
  /-- The value of the field is not of the type it was read as. -/
  | field (name : String) (error : ExtractError)
  /-- The value of the field is no object of the expected application type. -/
  | notA (field expected : String)
  /-- The constructor's own reason. -/
  | invalid (message : String)
deriving DecidableEq

/-- What went wrong, in one line. -/
def ConstructError.message : ConstructError → String
  | .unknownField name => "no field named '" ++ name ++ "'"
  | .field name error => "field '" ++ name ++ "': " ++ error.message
  | .notA name expected => "field '" ++ name ++ "' does not hold a " ++ expected
  | .invalid message => message

namespace Arguments

variable {α β : Type}

/-- Whether the field was bound from the source. -/
def isBound (args : Arguments α) (name : String) : Bool := (args.bound.lookup name).isSome

/-- The value bound to the field, or else the default of the first field so named. -/
def value? (args : Arguments α) (name : String) : Option (Value α) :=
  match args.bound.lookup name with
  | some value => some value
  | none => (args.declared.find? (·.name == name)).bind (·.default?)

/-- The value of the field, which has to be declared or bound. -/
def value (args : Arguments α) (name : String) : Except ConstructError (Value α) :=
  match args.value? name with
  | some value => .ok value
  | none => .error (.unknownField name)

/-- The value of the field, read as the target. -/
def get (args : Arguments α) (target : Target) (name : String) :
    Except ConstructError (target.Carrier α) := do
  match (← args.value name).extract target with
  | .ok x => return x
  | .error error => .error (.field name error)

/-- The object of the given application type that the field holds; nothing if it holds
null. -/
def optionalContent (args : Arguments α) (type : ContentType α β) (name : String) :
    Except ConstructError (Option β) := do
  let value ← args.value name
  if value.isNull then return none
  match value.content? type with
  | some content => return some content
  | none => .error (.notA name type.name)

/-- The object of the given application type that the field holds. -/
def content (args : Arguments α) (type : ContentType α β) (name : String) :
    Except ConstructError β := do
  match ← args.optionalContent type name with
  | some content => return content
  | none => .error (.notA name type.name)

/-- The values of all declared fields in declared order, with the defaults of those
that are not bound. -/
def materialize (args : Arguments α) : Entries (Value α) :=
  Entries.ofPairs (args.declared.filterMap fun d => (args.value? d.name).map (d.name, ·))

/-- The bound fields, for messages. -/
def text (args : Arguments α) : String :=
  "\x7b" ++ Value.commaSeparated (Value.entryTexts args.bound) ++ "\x7d"

end Arguments
end TypedConfig
