/-
# Shapes

A shape says what a node is to be decoded into, and whether null and absence are
acceptable. Records list their fields in order; a record may have a constructor,
which turns the bound fields into an object of the application.

Key definitions: `Leaf`, `Collection`, `Field`, `Shape`, `Shape.text`, `Shape.equals`.
-/
import TypedConfig.Arguments

namespace TypedConfig

/-- The shapes that hold no other shape. -/
inductive Leaf where
  | string
  /-- A whole number of 64 bits. -/
  | long
  /-- A whole number of 32 bits. -/
  | int
  | double
  | boolean
  | path
  /-- One of a list of constants, each known by its exact text. -/
  | enum (name : String) (constants : List String)
  /-- A type that only decoders of the application know. -/
  | named (name : String)
deriving DecidableEq, Inhabited

/-- The two kinds of collection: one keeps equal elements, the other does not. -/
inductive Collection where
  | list
  | set
deriving DecidableEq, Inhabited

/-- The name of the kind of collection, for messages. -/
def Collection.name : Collection → String
  | .list => "List"
  | .set => "Set"

/-- The value that holds the decoded elements. -/
def Collection.collect {α : Type} : Collection → List (Value α) → Value α
  | .list, values => .list values
  | .set, values => .setOf values

/-- A declared field with a shape of type `σ`. -/
structure Field (α σ : Type) where
  name : String
  shape : σ
  default? : Option (Value α)

/-- What a record constructor makes of its arguments. -/
abbrev Constructor (α : Type) := Arguments α → Except ConstructError α

/-- What a node is to be decoded into. -/
inductive Shape (α : Type) where
  | leaf (kind : Leaf) (nullable : Bool)
  | collection (kind : Collection) (element : Shape α) (nullable : Bool)
  /-- Values of one shape under keys of any name. -/
  | map (value : Shape α) (nullable : Bool)
  | record (name : String) (fields : List (Field α (Shape α)))
      (constructor? : Option (Constructor α)) (nullable : Bool)

/-- A declared field of a record shape. -/
abbrev ShapeField (α : Type) := Field α (Shape α)

namespace Shape

variable {α : Type}

instance : Inhabited (Shape α) := ⟨.leaf .string false⟩

/-- Whether null and absence are acceptable. -/
def nullable : Shape α → Bool
  | .leaf _ nullable | .collection _ _ nullable | .map _ nullable | .record _ _ _ nullable =>
    nullable

/-- The same shape, with null and absence acceptable or not. -/
def withNullable (nullable : Bool) : Shape α → Shape α
  | .leaf kind _ => .leaf kind nullable
  | .collection kind element _ => .collection kind element nullable
  | .map value _ => .map value nullable
  | .record name fields constructor? _ => .record name fields constructor? nullable

/-- Whether the shape is a record. -/
def isRecord : Shape α → Bool
  | .record .. => true
  | _ => false

/-- Whether the shape is the application's own type called `name`. -/
def isNamed (name : String) : Shape α → Bool
  | .leaf (.named n) _ => n == name
  | _ => false

/-- The first field of a record that is called `name`. -/
def fieldNamed? (fields : List (ShapeField α)) (name : String) : Option (ShapeField α) :=
  fields.find? (·.name == name)

/-- The constant of an enumeration that is exactly `text`. -/
def constant? (constants : List String) (text : String) : Option String :=
  constants.find? (· == text)

/-- The name of a leaf, for messages. -/
def leafText : Leaf → String
  | .string => "String"
  | .long => "Long"
  | .int => "Int"
  | .double => "Double"
  | .boolean => "Boolean"
  | .path => "Path"
  | .enum name _ => name
  | .named name => name

/-- The name of the shape, for messages: records and enumerations go by their own, and a
question mark tells that null is acceptable. -/
def text : Shape α → String
  | .leaf kind nullable => leafText kind ++ mark nullable
  | .collection kind element nullable =>
    kind.name ++ "<" ++ element.text ++ ">" ++ mark nullable
  | .map value nullable => "Map<String, " ++ value.text ++ ">" ++ mark nullable
  | .record name _ _ nullable => name ++ mark nullable
where
  /-- The mark of a shape that accepts null. -/
  mark (nullable : Bool) : String := if nullable then "?" else ""

mutual

/-- Equality of shapes: of a field's default it only counts whether there is one, and
the constructors of records do not count at all. -/
def equals : Shape α → Shape α → Bool
  | .leaf kind n, .leaf kind' n' => kind == kind' && n == n'
  | .collection kind element n, .collection kind' element' n' =>
    kind == kind' && element.equals element' && n == n'
  | .map value n, .map value' n' => value.equals value' && n == n'
  | .record name fields _ n, .record name' fields' _ n' =>
    name == name' && fieldsEqual fields fields' && n == n'
  | _, _ => false

/-- Equality of field lists, one by one. -/
def fieldsEqual : List (Field α (Shape α)) → List (Field α (Shape α)) → Bool
  | [], [] => true
  | ⟨name, shape, default?⟩ :: fields, ⟨name', shape', default'?⟩ :: fields' =>
    name == name' && shape.equals shape' && default?.isSome == default'?.isSome &&
      fieldsEqual fields fields'
  | _, _ => false

end

/-- Runs the constructor of a record, whose object is born at `site`; without a
constructor the value is the record of all declared fields. -/
def instantiate (name : String) (constructor? : Option (Constructor α)) (args : Arguments α)
    (site : List Nat) : Except ConstructError (Value α) :=
  match constructor? with
  | some construct => (construct args).map (.custom (.born site))
  | none => .ok (.record name args.materialize)

/-- The declared fields as a constructor sees them. -/
def declarations (fields : List (ShapeField α)) : List (Declaration α) :=
  fields.map fun field => ⟨field.name, field.default?⟩

end Shape
end TypedConfig
