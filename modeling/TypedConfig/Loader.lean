/-
# Loading configuration from files

A loader knows the decoders, spellings and preprocessors to decode with, a parser
for each file extension, and the roots of resources. It is built from a plan, which
begins as the standard one and is changed by settings, one after another.

Key definitions: `Loader`, `Setting`, `LoaderPlan`, `LoaderPlan.apply`,
`LoaderPlan.build`, `Loader.ofSettings`, `Loader.parseSource`, `Loader.loadNode`,
`Loader.loadValue`, `Loader.loadConfig`.
-/
import TypedConfig.Decoding
import TypedConfig.ParseError
import TypedConfig.Source
import TypedConfig.Substitution

namespace TypedConfig

/-- What a loader loads with. -/
structure Loader (α : Type) where
  context : Context α
  /-- The parsers by file extension in small ASCII letters. -/
  parsers : Entries Parser
  resourceRoots : List Path

/-- One step in making a loader. -/
inductive Setting (α : Type) where
  /-- Takes the place of all decoders so far. -/
  | registry (registry : Registry α)
  | decoder (decoder : Decoder α)
  | spelling (spelling : Spelling)
  | preprocessor (preprocessor : Preprocessor)
  | noPreprocessors
  /-- Registers the parser for all extensions that it is meant for. -/
  | parser (parser : Parser)
  | parserFor (extension : String) (parser : Parser)
  | resourceRoots (roots : List Path)

/-- What a loader is to be made of. -/
structure LoaderPlan (α : Type) where
  registry : Registry α
  spellings : List Spelling
  preprocessors : List Preprocessor
  /-- The parsers by file extension in small ASCII letters. -/
  parsers : Entries Parser
  resourceRoots : List Path

namespace LoaderPlan

variable {α : Type}

/-- The plan with the built-in decoders and all spellings. It substitutes variables of
the environment and has no parser yet. -/
def standard (environment : String → Option String) : LoaderPlan α where
  registry := Registry.defaults
  spellings := [FieldName.asDeclared, FieldName.camelCase, FieldName.kebabCase]
  preprocessors := [Substitution.preprocessor environment]
  parsers := []
  resourceRoots := []

/-- The plan with a parser registered for an extension, in place of an earlier one. -/
def addParserFor (plan : LoaderPlan α) (extension : String) (parser : Parser) : LoaderPlan α :=
  { plan with parsers := Entries.insert (Text.asciiLowered extension) parser plan.parsers }

/-- The plan after one more setting. -/
def apply (plan : LoaderPlan α) : Setting α → LoaderPlan α
  | .registry registry => { plan with registry }
  | .decoder decoder => { plan with registry := plan.registry.register decoder }
  | .spelling spelling => { plan with spellings := plan.spellings ++ [spelling] }
  | .preprocessor preprocessor =>
    { plan with preprocessors := plan.preprocessors ++ [preprocessor] }
  | .noPreprocessors => { plan with preprocessors := [] }
  | .parser parser =>
    parser.extensions.foldl (fun p extension => p.addParserFor extension parser) plan
  | .parserFor extension parser => plan.addParserFor extension parser
  | .resourceRoots roots => { plan with resourceRoots := roots }

/-- The loader that is made by the plan. -/
def build (plan : LoaderPlan α) : Loader α where
  context := plan.preprocessors.foldl Context.withPreprocessor
    (plan.spellings.foldl Context.withSpelling (Context.bare plan.registry))
  parsers := plan.parsers
  resourceRoots := plan.resourceRoots

end LoaderPlan

/-- A type that configurations are loaded as: the type of the application, and the shape
that is meant to make one. -/
structure ConfigType (α β : Type) extends ContentType α β where
  shape : Shape α

namespace Loader

variable {α β : Type}

/-- The loader of the standard plan. -/
def standard (environment : String → Option String) : Loader α :=
  (LoaderPlan.standard environment).build

/-- The loader that results from the settings, one after another. -/
def ofSettings (environment : String → Option String) (settings : List (Setting α)) : Loader α :=
  (settings.foldl LoaderPlan.apply (LoaderPlan.standard environment)).build

/-! ### Trees -/

/-- The parser registered for an extension, in any ASCII letter case. -/
def parserFor? (loader : Loader α) (extension : String) : Option Parser :=
  loader.parsers.lookup (Text.asciiLowered extension)

/-- Reads a source and parses it with the parser for its extension. -/
def parseSource (loader : Loader α) (files : FileSystem) (source : Source) : Outcome Node :=
  let extension := source.extension?.getD ""
  match loader.parserFor? extension with
  | none => .fail (.noParser source.label extension)
  | some parser =>
    match source.read files with
    | .error failures => .error failures
    | .ok text =>
      match parser.load text source.label with
      | .ok node => .ok node
      | .error error => .fail (.unparseable source.label error.message error.position)

/-- Parses the one source that there is. -/
def parseSources (loader : Loader α) (files : FileSystem) : List Source → Outcome Node
  | [source] => loader.parseSource files source
  | sources => .fail (.unknownSource (", ".intercalate (sources.map (·.label))))

/-- Parses the file at a path. -/
def loadNode (loader : Loader α) (files : FileSystem) (path : Path) : Outcome Node := do
  loader.parseSources files (← Source.ofPaths files [path])

/-- Parses a resource. -/
def loadResourceNode (loader : Loader α) (files : FileSystem) (name : String) : Outcome Node := do
  loader.parseSources files (← Source.resolveResources files loader.resourceRoots [name])

/-! ### Values -/

/-- Decodes a tree that was parsed already. -/
def decode (loader : Loader α) (node : Node) (shape : Shape α) : Outcome (Value α) :=
  loader.context.decode node shape

/-- Decodes the file at a path. -/
def loadValue (loader : Loader α) (files : FileSystem) (path : Path) (shape : Shape α) :
    Outcome (Value α) := do
  loader.decode (← loader.loadNode files path) shape

/-- Decodes a tree into a type of the application. -/
def decodeConfig (loader : Loader α) (type : ConfigType α β) (node : Node) : Outcome β := do
  let value ← loader.decode node type.shape
  match value.content? type.toContentType with
  | some config => return config
  | none =>
    .fail (.constructorRefused type.shape.text value.text
      ("constructor does not produce " ++ type.name))

/-- Loads a type of the application from the file at a path. -/
def loadConfig (loader : Loader α) (files : FileSystem) (type : ConfigType α β) (path : Path) :
    Outcome β := do
  loader.decodeConfig type (← loader.loadNode files path)

/-- Loads a type of the application from a resource. -/
def loadConfigResource (loader : Loader α) (files : FileSystem) (type : ConfigType α β)
    (name : String) : Outcome β := do
  loader.decodeConfig type (← loader.loadResourceNode files name)

end Loader
end TypedConfig
