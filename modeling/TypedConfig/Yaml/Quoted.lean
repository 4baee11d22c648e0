/-
# Quoted scalars

In a quoted scalar a single line break stands for a space, several stand for one
line break less, and blanks around them do not count. In single quotes a quote is
written twice; in double quotes a backslash introduces an escape.

Key definitions: `Gap`, `Gap.text`, `Scan.escape`, `Scan.quotedText`, `Scan.quoted`.
-/
import TypedConfig.Yaml.Spacing
import TypedConfig.Yaml.Indentation

namespace TypedConfig
namespace Yaml

/-- Blanks and line breaks between two words of a scalar. -/
structure Gap where
  /-- Whether the gap goes on to another line. -/
  newLine : Bool
  /-- Whether its first line break was a plain one, which folds into a space. -/
  folds : Bool
  /-- The blanks in front of the first line break, the last one first. -/
  blanks : List Char
  /-- A line feed for each further line break. -/
  breaks : List Char

/-- What the gap stands for. -/
def Gap.text (gap : Gap) : List Char :=
  if gap.newLine then
    if gap.folds && gap.breaks.isEmpty then [' '] else gap.breaks
  else gap.blanks.reverse

namespace Scan

/-- The letters of escapes and the characters they stand for. -/
def escapes : List (Char × Char) :=
  [('0', '\x00'), ('a', '\x07'), ('b', '\x08'), ('t', '\t'), ('\t', '\t'), ('n', '\n'),
   ('v', '\x0b'), ('f', '\x0c'), ('r', '\r'), ('e', '\x1b'), (' ', ' '), ('"', '"'),
   ('/', '/'), ('\\', '\\'), ('N', '\u0085'), ('_', '\u00a0'), ('L', '\u2028'),
   ('P', '\u2029')]

/-- The letters of escapes that give a character by its code, and the number of
hexadecimal digits that follow. -/
def codeEscapes : List (Char × Nat) := [('x', 2), ('u', 4), ('U', 8)]

/-- Reads a character code of `n` hexadecimal digits. -/
def codeEscape (start : Mark) (n : Nat) : Scan Char := do
  let digits ← read fun s => s.rest.take n
  if digits.length < n || !digits.all Text.isHexDigit then faultAt start .escapeDigits
  else
    let code := digits.foldl (fun code c => 16 * code + Text.hexValue c) 0
    if h : code.isValidChar then
      skipMany n
      return Char.ofNatAux code h
    else faultAt start .escapeCodePoint

/-- Reads an escape. -/
def escape (start : Mark) : Scan Char := do
  let c ← peekAt 1
  match escapes.lookup c, codeEscapes.lookup c with
  | some result, _ =>
    skipMany 2
    return result
  | none, some n =>
    skipMany 2
    codeEscape start n
  | none, none => faultAt start .escapeUnknown

/-- Reads up to the next blank, line break or closing quote, onto the end of a text whose
last character is first. The answer tells whether it ended with an escaped line
break. -/
def quotedWord (single : Bool) (start : Mark) (text : List Char) : Scan (List Char × Bool) :=
  loop (fun (data : List Char × Bool) => do
    let c ← peek
    let next ← peekAt 1
    if isGap c then return (data, false)
    else if single && c == '\'' then
      if next == '\'' then
        skipMany 2
        return (('\'' :: data.1, false), true)
      else return (data, false)
    else if !single && c == '"' then return (data, false)
    else if !single && c == '\\' then
      if isBreak next then
        skip
        skipBreak
        return ((data.1, true), false)
      else return (((← escape start) :: data.1, false), true)
    else
      skip
      return ((c :: data.1, false), true)) (text, false)

/-- Reads the blanks and line breaks after a word of a quoted scalar. -/
def quotedGap (newLine : Bool) : Scan Gap :=
  loop (fun (gap : Gap) => do
    let c ← peek
    if isBlank c then
      if gap.newLine then
        let s ← get
        if c == '\t' && s.mark.column < s.indent then fault .quotedTab
        else
          skipBlank
          return (gap, true)
      else
        skipBlank
        return ({ gap with blanks := c :: gap.blanks }, true)
    else if isBreak c then
      skipBreak
      if gap.newLine then return ({ gap with breaks := '\n' :: gap.breaks }, true)
      else return ({ gap with newLine := true, folds := true }, true)
    else return (gap, false)) ⟨newLine, false, [], []⟩

/-- Reads the words of a quoted scalar up to the closing quote. -/
def quotedText (single : Bool) (start : Mark) : Scan (List Char) := do
  let text ← loop (fun (text : List Char) => do
    let s ← get
    if ← atDocumentIndicator then faultAt start .quotedDocument
    else if isEnd (← peek) then faultAt start .quotedEnd
    else if s.mark.column < s.indent then faultAt start .quotedIndentation
    else
      let (text, escapedBreak) ← quotedWord single start text
      if (← peek) == (if single then '\'' else '"') then return (text, false)
      else
        let gap ← quotedGap escapedBreak
        return (gap.text.reverse ++ text, true)) []
  return text.reverse

/-- Reads a quoted scalar. After it the line ends, a colon makes it a key, or it is an
entry of a flow collection. -/
def quoted (single : Bool) : Scan Unit := do
  saveKey
  setKeyAllowed false
  let start ← here
  skip
  let text ← quotedText single start
  skip
  let _ ← skipToLineEnd true
  let c ← peek
  let s ← get
  let inFlow : Bool := 0 < s.flowLevel
  if isLineEnd c || (c == ':' && (inFlow || start.line == s.mark.line)) ||
      (inFlow && (c == ',' || c == ']' || c == '\x7d')) then
    skipToToken
    update fun s => { s with adjacentValueAt := s.mark.index }
    emit start (.scalar (if single then .singleQuoted else .doubleQuoted) (.ofList text))
  else fault .quotedTrailing

end Scan
end Yaml
end TypedConfig
