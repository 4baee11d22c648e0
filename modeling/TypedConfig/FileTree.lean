/-
# Trees of files

A file system given by its tree of directories and files, with paths understood
as seen from one of its directories: an empty step and a dot stay in a directory,
two dots go back to the directory before, and only a directory can be entered.

Key definitions: `FileTree`, `FileTree.find?`, `FileTree.write`, `FileTree.fileSystem`.
-/
import TypedConfig.Entries
import TypedConfig.Source
import TypedConfig.Text.Pieces

namespace TypedConfig

/-- A file with its bytes, or a directory with its named entries. -/
inductive FileTree where
  | file (bytes : List UInt8)
  | directory (entries : List (String × FileTree))
deriving Inhabited

namespace FileTree

/-- The entry of a directory called `name`. -/
def entry? (name : String) : FileTree → Option FileTree
  | .file _ => none
  | .directory entries => entries.lookup name

/-- What is reached by the steps from a tree; `above` holds the directories around it,
the innermost first. -/
def walk (above : List FileTree) (here : FileTree) : List (List Char) → Option FileTree
  | [] => some here
  | step :: steps =>
    match here with
    | .file _ => none
    | .directory _ =>
      if step = [] ∨ step = ['.'] then walk above here steps
      else if step = ['.', '.'] then
        match above with
        | [] => none
        | outer :: rest => walk rest outer steps
      else
        match here.entry? (String.ofList step) with
        | some inner => walk (here :: above) inner steps
        | none => none

/-- What is at a path, seen from the directory `here`. Nothing is outside of it. -/
def find? (here : FileTree) (path : Path) : Option FileTree :=
  if path.text.isEmpty || path.isAbsolute then none
  else walk [] here (Text.pieces '/' path.text.toList)

/-- The file system seen from the directory `here`. -/
def fileSystem (here : FileTree) : FileSystem where
  bytes? path :=
    match here.find? path with
    | some (.file bytes) => some bytes
    | _ => none

/-- The tree with `leaf` put at the end of the named steps; directories are made on the
way where there are none. -/
def put (leaf : FileTree) : List String → FileTree → FileTree
  | [], .directory entries =>
    match leaf with
    | .directory _ => .directory entries
    | .file _ => leaf
  | [], .file _ => leaf
  | step :: steps, .directory entries =>
    .directory (Entries.insert step
      (put leaf steps ((entries.lookup step).getD (.directory []))) entries)
  | step :: steps, .file _ => .directory [(step, put leaf steps (.directory []))]

/-- The named steps of a path. -/
def steps (path : Path) : List String :=
  path.components.filterMap fun
    | .name text => some (String.ofList text)
    | _ => none

/-- The tree with a file written at a path. -/
def write (here : FileTree) (path : Path) (bytes : List UInt8) : FileTree :=
  put (.file bytes) (steps path) here

/-- The tree with a directory made at a path. -/
def makeDirectory (here : FileTree) (path : Path) : FileTree :=
  put (.directory []) (steps path) here

end FileTree
end TypedConfig
