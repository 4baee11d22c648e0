/-
# Reports of failures

People read a report with one line per failure, the failures inside another one
indented beneath it; programs read the same forest as JSON.

Key definitions: `Failure.lines`, `Failures.report`, `Failures.text`, `Failures.toJson`.
-/
import TypedConfig.Failure
import TypedConfig.Position.Json
import TypedConfig.Text.Blank

namespace TypedConfig
namespace Failure

/-- The line of one failure: four spaces for each level of depth, a bullet and the
description. -/
def line (depth : Nat) (failure : Failure) : String :=
  String.ofList (List.replicate (4 * depth) ' ') ++ "- " ++ failure.description

mutual

/-- The lines of a failure at some depth and of all failures inside it. -/
def lines (depth : Nat) : Failure → List String
  | .elements collection path ⟨first, rest⟩ =>
    line depth (.elements collection path ⟨first, rest⟩) ::
      (first.lines (depth + 1) ++ linesOf (depth + 1) rest)
  | .field name ⟨first, rest⟩ =>
    line depth (.field name ⟨first, rest⟩) ::
      (first.lines (depth + 1) ++ linesOf (depth + 1) rest)
  | .record shape position path ⟨first, rest⟩ =>
    line depth (.record shape position path ⟨first, rest⟩) ::
      (first.lines (depth + 1) ++ linesOf (depth + 1) rest)
  | .several ⟨first, rest⟩ =>
    line depth (.several ⟨first, rest⟩) ::
      (first.lines (depth + 1) ++ linesOf (depth + 1) rest)
  | failure => [line depth failure]

/-- The lines of several failures at some depth. -/
def linesOf (depth : Nat) : List Failure → List String
  | [] => []
  | failure :: rest => failure.lines depth ++ linesOf depth rest

end

/-- The members that every failure has in its machine-readable form, with those that
only some kinds have. -/
def members (failure : Failure) : List (String × Json) :=
  [("code", .string failure.code), ("kind", .string failure.kindName),
    ("message", .string failure.message)] ++
  (match failure.path? with
    | some path => [("path", .string path)]
    | none => []) ++
  (match failure.position? with
    | some (.at line column source) => [("pos", (Position.at line column source).toJson)]
    | _ => [])

mutual

/-- The machine-readable form of a failure and of all failures inside it. -/
def toJson : Failure → Json
  | .elements collection path ⟨first, rest⟩ =>
    .object (members (.elements collection path ⟨first, rest⟩) ++
      [("failures", .array (first.toJson :: toJsonList rest))])
  | .field name ⟨first, rest⟩ =>
    .object (members (.field name ⟨first, rest⟩) ++
      [("failures", .array (first.toJson :: toJsonList rest))])
  | .record shape position path ⟨first, rest⟩ =>
    .object (members (.record shape position path ⟨first, rest⟩) ++
      [("failures", .array (first.toJson :: toJsonList rest))])
  | .several ⟨first, rest⟩ =>
    .object (members (.several ⟨first, rest⟩) ++
      [("failures", .array (first.toJson :: toJsonList rest))])
  | failure => .object (members failure)

/-- The machine-readable forms of several failures. -/
def toJsonList : List Failure → List Json
  | [] => []
  | failure :: rest => failure.toJson :: toJsonList rest

end

end Failure

namespace Failures

/-- The report: every line of every failure, each ended by a line break. -/
def report (failures : Failures) : String :=
  String.join ((Failure.linesOf 0 failures.toList).map (· ++ "\n"))

/-- The report under its heading, without blanks at the end. -/
def text (failures : Failures) : String :=
  "Error loading config because:\n\n" ++
    String.ofList (Text.trimEnd failures.report.toList)

/-- The machine-readable forms of all failures. -/
def toJson (failures : Failures) : Json := .array (Failure.toJsonList failures.toList)

end Failures
end TypedConfig
