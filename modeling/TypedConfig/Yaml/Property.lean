/-
# Tags and anchors

A tag names the type of a node and an anchor names the node itself. In a tag, a
character may be written as the bytes of its encoding, each as `%` and two
hexadecimal digits.

Key definitions: `Scan.tag`, `Scan.tagHandle`, `Scan.tagGlobal`, `Scan.anchorName`.
-/
import TypedConfig.Yaml.Indentation
import TypedConfig.Yaml.Spacing

namespace TypedConfig
namespace Yaml
namespace Scan

/-- How many bytes the encoding of a character has, by the first of them. -/
def encodedWidth (byte : Nat) : Option Nat :=
  if byte < 0x80 then some 1
  else if byte < 0xc0 then none
  else if byte < 0xe0 then some 2
  else if byte < 0xf0 then some 3
  else if byte < 0xf8 then some 4
  else none

/-- Reads one byte written as `%` and two hexadecimal digits. -/
def escapedByte (start : Mark) : Scan Nat := do
  let high ← peekAt 1
  let low ← peekAt 2
  if (← peek) == '%' && Text.isHexDigit high && Text.isHexDigit low then
    return 16 * Text.hexValue high + Text.hexValue low
  else faultAt start .tagEscape

/-- Reads the bytes after the first one of an escaped character and puts them behind
`code`. -/
def escapedRest (start : Mark) (code : Nat) : Nat → Scan Nat
  | 0 => return code
  | n + 1 => do
    let byte ← escapedByte start
    if byte < 0x80 || 0xc0 ≤ byte then faultAt start .tagTrailingByte
    else
      skipMany 3
      escapedRest start (256 * code + byte) n

/-- Reads an escaped character. The code of the character is the number that its bytes
form one after another, which is a letter only if there is one byte or there are two. -/
def escapedChar (start : Mark) : Scan Char := do
  let first ← escapedByte start
  match encodedWidth first with
  | none => faultAt start .tagLeadingByte
  | some width =>
    skipMany 3
    let code ← escapedRest start first (width - 1)
    if h : code.isValidChar then return Char.ofNatAux code h else faultAt start .tagCodePoint

/-- Reads a character of a tag, escaped or not. -/
def tagChar (start : Mark) : Scan Char := do
  let c ← peek
  if c == '%' then escapedChar start
  else
    skip
    return c

/-- Reads the characters of a tag that are in a class. -/
def tagText (start : Mark) (p : Char → Bool) : Scan (List Char) := do
  let text ← loop (fun (text : List Char) => do
    if p (← peek) then return ((← tagChar start) :: text, true)
    else return (text, false)) []
  return text.reverse

/-- Reads a handle: `!`, then letters, then a `!` that may be missing in a tag, but in a
directive only after nothing. -/
def tagHandle (inDirective : Bool) (start : Mark) : Scan (List Char) := do
  if (← peek) != '!' then faultAt start .tagMark
  else
    skip
    let name ← takeWhile isWordChar
    if (← peek) == '!' then
      skip
      return '!' :: name ++ ['!']
    else if inDirective && !name.isEmpty then faultAt start .tagHandle
    else return '!' :: name

/-- Reads what a handle stands for. -/
def tagGlobal (start : Mark) : Scan (List Char) := do
  let c ← peek
  if c == '!' || isTagChar c then
    let first ← tagChar start
    let rest ← tagText start isUriChar
    return first :: rest
  else faultAt start .tagGlobalCharacter

/-- Reads a tag in full, between `!<` and `>`. -/
def verbatimTag (start : Mark) : Scan (List Char) := do
  skipMany 2
  let text ← tagText start isUriChar
  if (← peek) == '>' then
    skip
    return text
  else faultAt start .tagVerbatimEnd

/-- Reads a tag as its handle and its suffix. -/
def tagParts (start : Mark) : Scan (List Char × List Char) := do
  if (← peekAt 1) == '<' then return ([], ← verbatimTag start)
  else
    let handle ← tagHandle false start
    if 2 ≤ handle.length && handle.getLast? == some '!' then
      let suffix ← tagText start isTagChar
      if suffix.isEmpty then faultAt start .tagSuffix else return (handle, suffix)
    else
      let suffix := handle.tail ++ (← tagText start isTagChar)
      return if suffix.isEmpty then ([], ['!']) else (['!'], suffix)

/-- Reads a tag, which ends at a gap or, inside of flow collections, at their marks. -/
def tag : Scan Unit := do
  saveKey
  setKeyAllowed false
  let start ← here
  let (handle, suffix) ← tagParts start
  let c ← peek
  if isGap c || (0 < (← get).flowLevel && isFlow c) then
    emit start (.tag (.ofList handle) (.ofList suffix))
  else faultAt start .tagEnd

/-- Reads the name of an anchor, after the `&` that introduces it or the `*` that refers
to it. -/
def anchorName (kind : String → TokenKind) : Scan Unit := do
  saveKey
  setKeyAllowed false
  let start ← here
  skip
  let name ← takeWhile isAnchorChar
  if name.isEmpty then faultAt start .anchorName else emit start (kind (.ofList name))

end Scan
end Yaml
end TypedConfig
