/-
# The detailed text of a shape

Key definitions: `Shape.detail`.
-/
import TypedConfig.Shape

namespace TypedConfig
namespace Shape

variable {α : Type}

/-- The detailed text of a leaf. -/
def leafDetail : Leaf → String
  | .enum name constants =>
    "Enum(EnumShape \x7b name: " ++ Text.quoted name ++ ", constants: [" ++
      Value.commaSeparated (constants.map Text.quoted) ++ "] \x7d)"
  | .named name => "Named(" ++ Text.quoted name ++ ")"
  | kind => leafText kind

/-- The detailed text of a shape around that of its kind. -/
def detailOf (kind : String) (nullable : Bool) : String :=
  "Shape \x7b kind: " ++ kind ++ ", nullable: " ++ Value.booleanText nullable ++ " \x7d"

mutual

/-- The detailed text, which shows the shapes of all fields. -/
def detail : Shape α → String
  | .leaf kind nullable => detailOf (leafDetail kind) nullable
  | .collection kind element nullable =>
    detailOf (kind.name ++ "(" ++ element.detail ++ ")") nullable
  | .map value nullable => detailOf ("Map(" ++ value.detail ++ ")") nullable
  | .record name fields constructor? nullable =>
    detailOf
      ("Record(RecordShape \x7b name: " ++ Text.quoted name ++ ", fields: [" ++
        Value.commaSeparated (fieldDetails fields) ++ "], has_constructor: " ++
        Value.booleanText constructor?.isSome ++ " \x7d)")
      nullable

/-- The detailed texts of fields. -/
def fieldDetails : List (Field α (Shape α)) → List String
  | [] => []
  | ⟨name, shape, default?⟩ :: fields =>
    ("FieldShape \x7b name: " ++ Text.quoted name ++ ", shape: " ++ shape.detail ++
      ", has_default: " ++ Value.booleanText default?.isSome ++ " \x7d") :: fieldDetails fields

end

end Shape
end TypedConfig
