/-
# The text of a value

A value is shown to people in a short form, for instance inside the message that
a constructor refused its arguments, and to developers in a detailed form that
names the kind of every value in it.

Key definitions: `Value.text`, `Value.detail`.
-/
import TypedConfig.Number.Shortest
import TypedConfig.Text.Quoted
import TypedConfig.Value

namespace TypedConfig
namespace Value

variable {α : Type}

/-- `parts` with commas between them. -/
def commaSeparated (parts : List String) : String := ", ".intercalate parts

/-- The word for a truth value. -/
def booleanText (b : Bool) : String := if b then "true" else "false"

mutual

/-- The short form. -/
def text : Value α → String
  | .null => "null"
  | .boolean b => booleanText b
  | .long n => int64Text n
  | .double x => doubleText x
  | .string s => Text.quoted s
  | .path p => Text.quoted p.text
  | .enum c => c
  | .list xs => "[" ++ commaSeparated (texts xs) ++ "]"
  | .set xs => "[" ++ commaSeparated (texts xs) ++ "]"
  | .map es => "\x7b" ++ commaSeparated (entryTexts es) ++ "\x7d"
  | .record name es => name ++ "\x7b" ++ commaSeparated (entryTexts es) ++ "\x7d"
  | .custom .. => "<custom>"

/-- The short forms of the elements. -/
def texts : List (Value α) → List String
  | [] => []
  | x :: xs => x.text :: texts xs

/-- The short forms of the entries, each with its key in front. -/
def entryTexts : List (String × Value α) → List String
  | [] => []
  | (key, x) :: es => (key ++ "=" ++ x.text) :: entryTexts es

end

mutual

/-- The detailed form. -/
def detail : Value α → String
  | .null => "Null"
  | .boolean b => "Boolean(" ++ booleanText b ++ ")"
  | .long n => "Long(" ++ int64Text n ++ ")"
  | .double x => "Double(" ++ doubleDetail x ++ ")"
  | .string s => "String(" ++ Text.quoted s ++ ")"
  | .path p => "Path(" ++ Text.quoted p.text ++ ")"
  | .enum c => "Enum(" ++ Text.quoted c ++ ")"
  | .list xs => "List([" ++ commaSeparated (details xs) ++ "])"
  | .set xs => "Set([" ++ commaSeparated (details xs) ++ "])"
  | .map es => "Map(\x7b" ++ commaSeparated (entryDetails es) ++ "\x7d)"
  | .record name es =>
    "Record \x7b name: " ++ Text.quoted name ++ ", fields: \x7b" ++
      commaSeparated (entryDetails es) ++ "\x7d \x7d"
  | .custom .. => "Custom(..)"

/-- The detailed forms of the elements. -/
def details : List (Value α) → List String
  | [] => []
  | x :: xs => x.detail :: details xs

/-- The detailed forms of the entries, each with its quoted key in front. -/
def entryDetails : List (String × Value α) → List String
  | [] => []
  | (key, x) :: es => (Text.quoted key ++ ": " ++ x.detail) :: entryDetails es

end

end Value
end TypedConfig
