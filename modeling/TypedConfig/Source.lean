/-
# Sources of configuration

A source is a file, given by its path or by the name of a resource that is looked
up under a list of root directories. Resolving several sources reports all the
missing ones together.

Key definitions: `FileSystem`, `Source`, `Source.ofPaths`, `Source.findResource?`,
`Source.resolveResources`, `Source.read`.
-/
import TypedConfig.Outcome
import TypedConfig.Path

namespace TypedConfig

/-- What the file system holds: the bytes of the file at a path, or nothing if there is
no file. -/
structure FileSystem where
  bytes? : Path → Option (List UInt8)

/-- Whether there is a file at the path. -/
def FileSystem.isFile (files : FileSystem) (path : Path) : Bool := (files.bytes? path).isSome

/-- A file, or a resource that was found as a file. -/
inductive Source where
  | file (path : Path)
  | resource (name : String) (path : Path)
deriving DecidableEq

namespace Source

/-- The label in positions and messages: the path of a file, the name of a resource. -/
def label : Source → String
  | .file path => path.text
  | .resource name _ => name

/-- The path of the file. -/
def path : Source → Path
  | .file path => path
  | .resource _ path => path

/-- The extension of the file, in small ASCII letters. -/
def extension? (source : Source) : Option String := source.path.extension?

/-! ### Resolving -/

/-- The source at a path, which has to be a file. -/
def ofPath (files : FileSystem) (path : Path) : Outcome Source :=
  if files.isFile path then .ok (.file path) else .fail (.unknownSource path.text)

/-- The sources at the paths, in order. -/
def ofPaths (files : FileSystem) (paths : List Path) : Outcome (List Source) :=
  (Outcome.sequence (paths.map (ofPath files))).wrap .several

/-- The path that a resource name has under a root; slashes at its front do not count. -/
def resourcePath (root : Path) (name : String) : Path :=
  root.join ⟨String.ofList (name.toList.dropWhile (· == '/'))⟩

/-- The resource under the first root that holds it. -/
def findResource? (files : FileSystem) (roots : List Path) (name : String) : Option Source :=
  ((roots.map fun root => resourcePath root name).find? files.isFile).map (.resource name)

/-- The resource of the given name, which has to be under some root. -/
def ofResource (files : FileSystem) (roots : List Path) (name : String) : Outcome Source :=
  match findResource? files roots name with
  | some source => .ok source
  | none => .fail (.unknownSource name)

/-- The resources of the given names, in order. -/
def resolveResources (files : FileSystem) (roots : List Path) (names : List String) :
    Outcome (List Source) :=
  (Outcome.sequence (names.map (ofResource files roots))).wrap .several

/-! ### Reading -/

/-- The text of the source, which has to be a file in UTF-8. -/
def read (files : FileSystem) (source : Source) : Outcome String :=
  match (files.bytes? source.path).bind fun bytes => String.fromUTF8? ⟨bytes.toArray⟩ with
  | some text => .ok text
  | none => .fail (.unknownSource source.label)

end Source
end TypedConfig
