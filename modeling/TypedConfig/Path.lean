/-
# File paths

A path is kept as it was written. Two paths are the same when they have the same
components: separators may be doubled or stand at the end, and a dot that is not
at the front means nothing.

Key definitions: `Path`, `Path.components`, `Path.same`, `Path.join`, `Path.extension?`.
-/
import TypedConfig.Text.Ascii
import TypedConfig.Text.Pieces

namespace TypedConfig

/-- A file path in its written form. -/
structure Path where
  text : String
deriving DecidableEq, Inhabited

namespace Path

/-- One step of a path. -/
inductive Component where
  | root
  | current
  | parent
  | name (text : List Char)
deriving DecidableEq

/-- The component that one piece between separators stands for, if any. -/
def component? (piece : List Char) : Option Component :=
  if piece = [] ∨ piece = ['.'] then none
  else if piece = ['.', '.'] then some .parent
  else some (.name piece)

/-- The components of a path. -/
def components (path : Path) : List Component :=
  let cs := path.text.toList
  let front :=
    match Text.pieces '/' cs with
    | [] :: _ :: _ => [Component.root]
    | ['.'] :: _ => [Component.current]
    | _ => []
  front ++ (Text.pieces '/' cs).filterMap component?

/-- Whether two paths have the same components. -/
def same (a b : Path) : Bool := a.components == b.components

/-- Whether a path starts at the root of the file system. -/
def isAbsolute (path : Path) : Bool := path.text.toList.head? == some '/'

/-- `relative` seen from the directory `base`; an absolute path stands for itself. -/
def join (base relative : Path) : Path :=
  if relative.isAbsolute then relative
  else if base.text.isEmpty || base.text.toList.getLast? == some '/' then
    ⟨base.text ++ relative.text⟩
  else ⟨base.text ++ "/" ++ relative.text⟩

/-- What follows the last dot of a file name; a name without a dot, or with its only dot
at the front, has no extension. -/
def nameExtension? (name : List Char) : Option (List Char) :=
  let tail := name.reverse.takeWhile (· ≠ '.')
  if tail.length + 1 < name.length then some tail.reverse else none

/-- The extension of the last component, in small ASCII letters. -/
def extension? (path : Path) : Option String :=
  match path.components.getLast? with
  | some (.name text) =>
    (nameExtension? text).map fun cs => String.ofList (cs.map Text.asciiLower)
  | _ => none

end Path
end TypedConfig
