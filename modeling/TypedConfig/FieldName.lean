/-
# Spellings of field names

Records declare their fields in snake case, but sources spell their keys in
several ways. A spelling turns the declared name into the key to look for.

Key definitions: `Spelling`, `FieldName.camelCase`, `FieldName.kebabCase`.
-/
import TypedConfig.Text.LetterCase

namespace TypedConfig

/-- The key under which a declared field name is looked for. -/
abbrev Spelling := String → String

namespace FieldName

/-- Whether `c` stands between the words of a name. -/
def isSeparator (c : Char) : Bool := c == '_' || c == '-'

/-- The rest of a name in camel case: `started` tells that some character was written
before, `capital` that the next one begins a word. -/
def camelFrom (started capital : Bool) : List Char → List Char
  | [] => []
  | c :: cs =>
    if isSeparator c then camelFrom started started cs
    else if capital then Text.upper c ++ camelFrom true false cs
    else c :: camelFrom true false cs

/-- The rest of a name in kebab case; `open_` tells that something other than a dash was
written just before, so that a capital letter needs a dash in front. -/
def kebabFrom (needsDash : Bool) : List Char → List Char
  | [] => []
  | c :: cs =>
    if c = '_' then '-' :: kebabFrom false cs
    else if Text.isUppercase c then
      let small := Text.lower c
      (if needsDash then ['-'] else []) ++ small ++ kebabFrom (small.getLast? != some '-') cs
    else c :: kebabFrom (c != '-') cs

/-- The name as it is. -/
def asDeclared : Spelling := id

/-- The words of the name joined, all but the first with a capital. -/
def camelCase : Spelling := fun name => String.ofList (camelFrom false false name.toList)

/-- The words of the name in small letters, joined by dashes; a capital letter begins a
word. -/
def kebabCase : Spelling := fun name => String.ofList (kebabFrom false name.toList)

end FieldName
end TypedConfig
