/-
# JSON documents

A JSON text may have comments. Without them it has to be JSON in the strict sense;
it is then read as the YAML document that it is as well.

Key definitions: `Json.parse`, `Json.documents`.
-/
import TypedConfig.Json.Comments
import TypedConfig.Json.Grammar
import TypedConfig.Text.Blank
import TypedConfig.Yaml.Document

namespace TypedConfig
namespace Json

/-- The tree of a text without comments. -/
def parseBare (text source : String) : Except ParseError Node :=
  if (Text.trim text.toList).isEmpty then .error (.empty source)
  else
    match check text with
    | some rejection =>
      .error (.malformed rejection.message
        (.at (rejection.line - 1) (rejection.column - 1) source))
    | none => Yaml.parse text source

/-- The tree of a text. -/
def parse (text source : String) : Except ParseError Node :=
  match blankComments text with
  | .error ⟨line, column⟩ =>
    .error (.malformed "unterminated block comment" (.at line column source))
  | .ok text => parseBare text source

/-- The parser of JSON files. -/
def documents : Parser := ⟨["json"], parse⟩

end Json
end TypedConfig
