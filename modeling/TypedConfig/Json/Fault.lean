/-
# What can be wrong with a JSON text

Key definitions: `Json.Fault`, `Json.Rejection`, `Json.Rejection.message`.
-/
import TypedConfig.Number.Integer

namespace TypedConfig
namespace Json

/-- The rules of JSON that a text can break. -/
inductive Fault where
  | endInArray
  | endInObject
  | endInString
  | endInValue
  | colonExpected
  | arrayCommaExpected
  | objectCommaExpected
  | wordExpected
  | valueExpected
  | escape
  | number
  | numberRange
  | controlCharacter
  | keyExpected
  | loneSurrogate
  | trailingComma
  | trailingCharacters
  | surrogateEnd
  | depth
deriving DecidableEq

/-- What is wrong, without the place. -/
def Fault.message : Fault → String
  | .endInArray => "EOF while parsing a list"
  | .endInObject => "EOF while parsing an object"
  | .endInString => "EOF while parsing a string"
  | .endInValue => "EOF while parsing a value"
  | .colonExpected => "expected `:`"
  | .arrayCommaExpected => "expected `,` or `]`"
  | .objectCommaExpected => "expected `,` or `\x7d`"
  | .wordExpected => "expected ident"
  | .valueExpected => "expected value"
  | .escape => "invalid escape"
  | .number => "invalid number"
  | .numberRange => "number out of range"
  | .controlCharacter => "control character (\\u0000-\\u001F) found while parsing a string"
  | .keyExpected => "key must be a string"
  | .loneSurrogate => "lone leading surrogate in hex escape"
  | .trailingComma => "trailing comma"
  | .trailingCharacters => "trailing characters"
  | .surrogateEnd => "unexpected end of hex escape"
  | .depth => "recursion limit exceeded"

/-- A fault and its place: lines are counted from one, and the column is the number of
bytes on the line up to the place. -/
structure Rejection where
  fault : Fault
  line : Nat
  column : Nat
deriving DecidableEq

/-- What is wrong, and where. -/
def Rejection.message (rejection : Rejection) : String :=
  rejection.fault.message ++ " at line " ++ natText rejection.line ++ " column " ++
    natText rejection.column

end Json
end TypedConfig
