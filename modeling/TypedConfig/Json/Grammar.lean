/-
# The grammar of JSON

A text is checked strictly before it is read as a tree. At most 127 arrays and
objects may be nested in one another.

Key definitions: `Json.Read.stringRest`, `Json.Read.value`, `Json.check`.
-/
import TypedConfig.Json.Numeral

namespace TypedConfig
namespace Json
namespace Read

/-! ### Strings -/

/-- Reads the four hexadecimal digits of a code unit. -/
def codeUnit : Read Nat := do
  let ahead := (← get).rest.take 4
  for _ in ahead do skip
  if ahead.length < 4 then fault .endInString
  else if ahead.all Text.isHexDigit then
    return ahead.foldl (fun n c => 16 * n + Text.hexValue c) 0
  else fault .escape

/-- Reads a byte that has to be `c`. -/
def surrogateMark (c : Char) : Read Unit := do
  match ← next? with
  | none => fault .endInString
  | some d => if d = c then pure () else fault .surrogateEnd

/-- Reads a character given by code units: one that is no surrogate, or a leading and a
trailing surrogate. -/
def codeEscape : Read Unit := do
  let first ← codeUnit
  if 0xdc00 ≤ first && first < 0xe000 then fault .loneSurrogate
  if 0xd800 ≤ first && first < 0xdc00 then
    surrogateMark '\\'
    surrogateMark 'u'
    let second ← codeUnit
    if second < 0xdc00 || 0xe000 ≤ second then fault .loneSurrogate

/-- Reads an escape after its backslash. -/
def escape : Read Unit := do
  match ← next? with
  | none => fault .endInString
  | some c =>
    if c == 'u' then codeEscape
    else if "\"\\/bfnrt".toList.contains c then pure ()
    else fault .escape

/-- Reads a string after its opening quote. -/
def stringRest : Read Unit :=
  loop (fun () => do
    match ← next? with
    | none => fault .endInString
    | some c =>
      if c == '"' then return ((), false)
      else if c == '\\' then
        escape
        return ((), true)
      else if c.toNat < 0x20 then fault .controlCharacter
      else return ((), true)) ()

/-! ### Values -/

/-- Reads the letters of a word. -/
def word : List Char → Read Unit
  | [] => pure ()
  | c :: cs => do
    match ← next? with
    | none => fault .endInValue
    | some d => if d = c then word cs else fault .wordExpected

/-- Reads the elements of an array and its end. -/
def elements (value : Read Unit) : Read Unit := do
  let _ ← loop (fun (first : Bool) => do
    match ← nextVisible? with
    | none => faultAhead .endInArray
    | some c =>
      if c == ']' then return (first, false)
      else if first then
        value
        return (false, true)
      else if c == ',' then
        skip
        match ← nextVisible? with
        | none => faultAhead .endInValue
        | some d =>
          if d == ']' then faultAhead .trailingComma
          else
            value
            return (false, true)
      else faultAhead .arrayCommaExpected) true
  skip

/-- Reads a member of an object, from the opening quote of its key. -/
def member (value : Read Unit) : Read Unit := do
  skip
  stringRest
  match ← nextVisible? with
  | none => faultAhead .endInObject
  | some c =>
    if c == ':' then
      skip
      value
    else faultAhead .colonExpected

/-- Reads the members of an object and its end. -/
def members (value : Read Unit) : Read Unit := do
  let _ ← loop (fun (first : Bool) => do
    match ← nextVisible? with
    | none => faultAhead .endInObject
    | some c =>
      if c == '\x7d' then return (first, false)
      else if first then
        if c == '"' then
          member value
          return (false, true)
        else faultAhead .keyExpected
      else if c == ',' then
        skip
        match ← nextVisible? with
        | none => faultAhead .endInValue
        | some d =>
          if d == '"' then
            member value
            return (false, true)
          else if d == '\x7d' then faultAhead .trailingComma
          else faultAhead .keyExpected
      else faultAhead .objectCommaExpected) true
  skip

/-- Reads a value; `container?` reads the inside of an array or an object, unless they are
nested too deep already. -/
def valueWith (container? : Option (Bool → Read Unit)) : Read Unit := do
  match ← nextVisible? with
  | none => faultAhead .endInValue
  | some c =>
    if c == 'n' then word "null".toList
    else if c == 't' then word "true".toList
    else if c == 'f' then word "false".toList
    else if c == '-' then
      skip
      number
    else if Text.isDigit c then number
    else if c == '"' then
      skip
      stringRest
    else if c == '[' || c == '\x7b' then
      match container? with
      | none => faultAhead .depth
      | some container =>
        skip
        container (c == '[')
    else faultAhead .valueExpected

/-- Reads a value that nests at most so many arrays and objects. -/
def value : Nat → Read Unit
  | 0 => valueWith none
  | n + 1 => valueWith (some fun isArray => if isArray then elements (value n) else members (value n))

/-- The deepest nesting of arrays and objects. -/
def depthLimit : Nat := 127

/-- Reads a value and nothing else. -/
def document : Read Unit := do
  value depthLimit
  if (← nextVisible?).isSome then faultAhead .trailingCharacters

end Read

/-- What is wrong with a text as JSON, if anything is. -/
def check (text : String) : Option Rejection :=
  match Read.document (.start text) with
  | .ok _ => none
  | .error rejection => some rejection

end Json
end TypedConfig
