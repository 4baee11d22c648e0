/-
# What can be wrong with the text of a source

Key definitions: `ParseError`, `ParseError.message`, `Parser`.
-/
import TypedConfig.Node

namespace TypedConfig

/-- Why a text could not be parsed into a tree. -/
inductive ParseError where
  /-- The text breaks the rules of its format. -/
  | malformed (message : String) (position : Position)
  /-- A mapping holds a key twice; `path` is that of the mapping. -/
  | duplicateKey (key path : String) (position : Position)
  /-- The text uses a feature of its format that trees cannot express. -/
  | unsupported (message : String) (position : Position)
  /-- The text holds no document. -/
  | empty (source : String)
deriving DecidableEq

namespace ParseError

/-- What went wrong, in one line. -/
def message : ParseError → String
  | .malformed message _ => message
  | .duplicateKey key path _ => "duplicate key '" ++ key ++ "' at " ++ path
  | .unsupported message _ => message
  | .empty source => source ++ " contains no document"

/-- Where it went wrong; an empty text has no such place. -/
def position : ParseError → Position
  | .malformed _ position | .duplicateKey _ _ position | .unsupported _ position => position
  | .empty _ => .unknown

end ParseError

/-- A parser: the file extensions that it is meant for, and the tree of a text, given the
label of its source. -/
structure Parser where
  extensions : List String
  load (text source : String) : Except ParseError Node

end TypedConfig
