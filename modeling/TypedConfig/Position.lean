/-
# Source positions

A node remembers where its text began: a line and a column, both counted from
nought, in a source known by its label. People are shown both counted from one.

Key definitions: `Position`, `Position.text`.
-/
import TypedConfig.Number.Integer

namespace TypedConfig

/-- Where a node came from. A node made by a program has no known position. -/
inductive Position where
  | unknown
  | at (line column : Nat) (source : String)
deriving DecidableEq, Inhabited

namespace Position

/-- Whether the position is known. -/
def isKnown : Position → Bool
  | .unknown => false
  | .at .. => true

/-- The label of the source, if the position is known. -/
def source? : Position → Option String
  | .unknown => none
  | .at _ _ source => some source

/-- The line counted from nought, if the position is known. -/
def line? : Position → Option Nat
  | .unknown => none
  | .at line _ _ => some line

/-- The position as people are shown it, counted from one. -/
def text : Position → String
  | .unknown => "<unknown position>"
  | .at line column source => source ++ ":" ++ natText (line + 1) ++ ":" ++ natText (column + 1)

end Position
end TypedConfig
