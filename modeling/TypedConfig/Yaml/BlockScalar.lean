/-
# Block scalars

A block scalar is the indented lines after its header. In a literal one all line
breaks count. In a folded one a single line break between two lines that begin
with no blank stands for a space. The header may give the indentation, and what
becomes of the line breaks at the end.

Key definitions: `Chomping`, `Scan.blockHeader`, `Scan.blockLines`, `Scan.blockScalar`.
-/
import TypedConfig.Yaml.Indentation
import TypedConfig.Yaml.Spacing

namespace TypedConfig
namespace Yaml

/-- What becomes of the line breaks at the end of a block scalar: all are dropped, one is
kept, or all are kept. -/
inductive Chomping where
  | strip
  | clip
  | keep
deriving DecidableEq

namespace Scan

/-- Reads the chomping, if it is given. -/
def chomping? : Scan (Option Chomping) := do
  let c ← peek
  if c == '+' then
    skip
    return some .keep
  else if c == '-' then
    skip
    return some .strip
  else return none

/-- Reads the digit that gives the indentation; nought stands for none. -/
def indentDigit (start : Mark) : Scan Nat := do
  let c ← peek
  if c == '0' then faultAt start .blockIndentationZero
  else if Text.isDigit c then
    skip
    return Text.hexValue c
  else return 0

/-- Reads the header: chomping and indentation in either order. -/
def blockHeader (start : Mark) : Scan (Chomping × Nat) := do
  match ← chomping? with
  | some chomping => return (chomping, ← indentDigit start)
  | none =>
    let indent ← indentDigit start
    let chomping? ← if indent = 0 then pure none else chomping?
    return (chomping?.getD .clip, indent)

/-- Skips empty lines, and the indentation of the line after them. -/
def skipIndent (indent : Nat) : Scan Nat :=
  loop (fun (breaks : Nat) => do
    loop (fun () => do
      if (← here).column < indent && (← peek) == ' ' then
        skipBlank
        return ((), true)
      else return ((), false)) ()
    if isBreak (← peek) then
      skipBreak
      return (breaks + 1, true)
    else return (breaks, false)) 0

/-- Skips empty lines and finds the indentation: that of the first line with content, or
of a longer one before it. -/
def findIndent : Scan (Nat × Nat) := do
  let (indent, breaks) ← loop (fun (data : Nat × Nat) => do
    loop (fun () => do
      if (← peek) == ' ' then
        skipBlank
        return ((), true)
      else return ((), false)) ()
    let indent := max data.1 (← here).column
    if isBreak (← peek) then
      skipBreak
      return ((indent, data.2 + 1), true)
    else return ((indent, data.2), false)) (0, 0)
  return (max indent ((← get).indent + 1).toNat, breaks)

/-- What was read of a block scalar. -/
structure BlockLines where
  /-- The text, last character first. -/
  text : List Char
  /-- Whether the text is followed by a line break. -/
  broken : Bool
  /-- How many empty lines follow it. -/
  breaks : Nat
  /-- Whether its last line began with a blank. -/
  blank : Bool

/-- What stands between the lines read so far and a line that begins with a blank or
not. -/
def BlockLines.gap (lines : BlockLines) (folded blank : Bool) : List Char :=
  if folded && lines.broken && !lines.blank && !blank then
    if lines.breaks = 0 then [' '] else List.replicate lines.breaks '\n'
  else List.replicate (lines.breaks + if lines.broken then 1 else 0) '\n'

/-- Reads the lines of a block scalar. -/
def blockLines (folded : Bool) (indent breaks : Nat) : Scan BlockLines :=
  loop (fun (lines : BlockLines) => do
    let c ← peek
    if (← here).column != indent || isEnd c || (indent == 0 && (← atIndicator '.')) then
      return (lines, false)
    else
      let text ← loop (fun (text : List Char) => do
        let c ← peek
        if isLineEnd c then return (text, false)
        else
          skipBlank
          return (c :: text, true)) (lines.gap folded (isBlank c) ++ lines.text)
      if isEnd (← peek) then return (⟨text, false, 0, isBlank c⟩, false)
      else
        skipBreak
        return (⟨text, true, ← skipIndent indent, isBlank c⟩, true))
    ⟨[], false, breaks, false⟩

/-- The text of a block scalar without content. -/
def emptyBlock (chomping : Chomping) (broken : Bool) (breaks : Nat) : List Char :=
  match chomping with
  | .strip => []
  | .clip => List.replicate (if broken then 1 else 0) '\n'
  | .keep => List.replicate (if breaks = 0 then (if broken then 1 else 0) else breaks) '\n'

/-- The text of a block scalar. An unfinished last line counts as finished if `atEnd`. -/
def chomped (chomping : Chomping) (lines : BlockLines) (atEnd : Bool) : List Char :=
  let single := (if lines.broken then 1 else 0) + if atEnd then 1 else 0
  let breaks :=
    match chomping with
    | .strip => 0
    | .clip => single
    | .keep => single + lines.breaks
  lines.text.reverse ++ List.replicate breaks '\n'

/-- Reads what follows the header. The mark is that of the content, if there is any. -/
def blockContent (folded : Bool) (start : Mark) (chomping : Chomping) (digit : Nat) :
    Scan (Mark × List Char) := do
  let broken := isBreak (← peek)
  skipBreak
  if (← peek) == '\t' then faultAt start .blockTab
  else
    let outer := (← get).indent
    let (indent, breaks) ←
      if digit = 0 then findIndent
      else do
        let indent := (max outer 0).toNat + digit
        pure (indent, ← skipIndent indent)
    let mark ← here
    if isEnd (← peek) then
      return (start, if mark.line = start.line then [] else emptyBlock chomping broken breaks)
    else if mark.column < indent && outer < mark.column then fault .blockIndentation
    else
      let lines ← blockLines folded indent breaks
      let atEnd := isEnd (← peek) && max indent 1 ≤ (← here).column
      return (mark, chomped chomping lines atEnd)

/-- Reads a block scalar. A key may follow it. -/
def blockScalar (folded : Bool) : Scan Unit := do
  saveKey
  setKeyAllowed true
  let start ← here
  skip
  dropHanging
  let (chomping, digit) ← blockHeader start
  let _ ← skipToLineEnd true
  if isLineEnd (← peek) then
    let (mark, text) ← blockContent folded start chomping digit
    emit mark (.scalar (if folded then .folded else .literal) (.ofList text))
  else faultAt start .blockHeader

end Scan
end Yaml
end TypedConfig
