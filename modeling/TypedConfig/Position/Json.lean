/-
# Positions as JSON

A position is written as an object with a `type` member; it is read from such an
object, in which further members are ignored, or from an array that holds the
type and then the other members in order.

Key definitions: `Position.toJson`, `Position.ofJson?`.
-/
import TypedConfig.Json
import TypedConfig.Position

namespace TypedConfig
namespace Position

/-- The position as an object. -/
def toJson : Position → Json
  | .unknown => .object [("type", .string "NoPos")]
  | .at line column source =>
    .object [("type", .string "LineColPos"), ("line", .natural line), ("col", .natural column),
      ("source", .string source)]

/-- A known position from its three members. -/
def ofMembers? (line column source : Option Json) : Option Position := do
  return .at (← (← line).word?) (← (← column).word?) (← (← source).string?)

/-- Reads a position; `none` if the value does not describe one. -/
def ofJson? (json : Json) : Option Position :=
  match json with
  | .object _ =>
    match (json.field? "type").bind Json.string? with
    | some "NoPos" => some .unknown
    | some "LineColPos" =>
      ofMembers? (json.field? "line") (json.field? "col") (json.field? "source")
    | _ => none
  | .array (.string "NoPos" :: _) => some .unknown
  | .array [.string "LineColPos", line, column, source] =>
    ofMembers? (some line) (some column) (some source)
  | _ => none

end Position
end TypedConfig
