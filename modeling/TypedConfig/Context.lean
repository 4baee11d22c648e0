/-
# The context of a decoding

A context holds what stays the same throughout a decoding: the decoders, the
spellings under which fields are looked for, and the preprocessors.

Key definitions: `Context`, `Context.resolveField`, `Context.preprocess`.
-/
import TypedConfig.FieldName
import TypedConfig.Preprocessor
import TypedConfig.Registry

namespace TypedConfig

/-- What stays the same throughout a decoding. -/
structure Context (α : Type) where
  registry : Registry α
  spellings : List Spelling
  preprocessors : List Preprocessor
  /-- How often, one inside the other, decoders of the application may hand a node back.
  A decoding that ends without this bound has no use for it. -/
  delegationLimit : Nat

namespace Context

variable {α : Type}

/-- The bound on handing nodes back that contexts start with. -/
def defaultDelegationLimit : Nat := 1000

/-- A context without spellings and preprocessors. -/
def bare (registry : Registry α) : Context α := ⟨registry, [], [], defaultDelegationLimit⟩

/-- A context that looks for fields under their declared names. -/
def ofRegistry (registry : Registry α) : Context α :=
  ⟨registry, [FieldName.asDeclared], [], defaultDelegationLimit⟩

/-- The context with one more spelling to try last. -/
def withSpelling (ctx : Context α) (spelling : Spelling) : Context α :=
  { ctx with spellings := ctx.spellings ++ [spelling] }

/-- The context with one more preprocessor to run last. -/
def withPreprocessor (ctx : Context α) (preprocessor : Preprocessor) : Context α :=
  { ctx with preprocessors := ctx.preprocessors ++ [preprocessor] }

/-- The child of a map node that holds the field: the one under the first spelling of
the name that is a key; undefined if there is none. -/
def resolveField (ctx : Context α) (node : Node) (name : String) : Node :=
  ((ctx.spellings.map fun spelling => node.atKey (spelling name)).find? (·.isDefined)).getD
    .undefined

/-- The node after all preprocessors. -/
def preprocess (ctx : Context α) (node : Node) : Node := Preprocessor.run ctx.preprocessors node

end Context
end TypedConfig
