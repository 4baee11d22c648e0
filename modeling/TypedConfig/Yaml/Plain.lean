/-
# Plain scalars

A plain scalar has no quotes. It ends at a comment, at a colon with a gap after
it, at a document indicator, in a flow collection at the marks of such, and in a
block at the first line that is not indented further than the block.

Key definitions: `Scan.plainChar`, `Scan.plainText`, `Scan.plain`.
-/
import TypedConfig.Yaml.Quoted

namespace TypedConfig
namespace Yaml
namespace Scan

/-- Whether `c` can belong to a plain scalar, by the character after it. -/
def plainChar (inFlow : Bool) (c next : Char) : Bool :=
  if c == ':' then !(isGap next || (inFlow && isFlow next))
  else !isGap c && !(inFlow && isFlow c)

/-- Reads the characters of a plain scalar up to the next gap or its end, onto the end of
a text whose last character is first. -/
def plainWord (inFlow : Bool) (text : List Char) : Scan (List Char) :=
  loop (fun (text : List Char) => do
    let c ← peek
    if plainChar inFlow c (← peekAt 1) then
      skip
      return (c :: text, true)
    else return (text, false)) text

/-- Reads the blanks and line breaks after a word of a plain scalar. A tab may stand to
the left of `indent` only in a line without content. -/
def plainGap (start : Mark) (indent : Int) : Scan Gap := do
  loop (fun (gap : Gap) => do
    let c ← peek
    let s ← get
    if isBlank c then
      if !s.lineIsBlank then
        skipBlank
        return ({ gap with blanks := c :: gap.blanks }, true)
      else if c == '\t' && s.mark.column < indent then
        let _ ← skipToLineEnd true
        if isLineEnd (← peek) then return (gap, true) else faultAt start .plainTab
      else
        skipBlank
        return (gap, true)
    else if isBreak c then
      skipBreak
      if s.lineIsBlank then return ({ gap with breaks := '\n' :: gap.breaks }, true)
      else return ({ gap with newLine := true, folds := true }, true)
    else return (gap, false)) ⟨(← get).lineIsBlank, false, [], []⟩

/-- Reads the words of a plain scalar. -/
def plainText (start : Mark) (indent : Int) : Scan (List Char) := do
  let inFlow : Bool := 0 < (← get).flowLevel
  let (text, _) ← loop (fun (data : List Char × Gap) => do
    let c ← peek
    let next ← peekAt 1
    if (← atDocumentIndicator) || c == '#' then return (data, false)
    else if inFlow && c == '-' && isFlow next then fault .plainDash
    else
      let text ←
        if plainChar inFlow c next then plainWord inFlow (data.2.text.reverse ++ data.1)
        else pure data.1
      let c ← peek
      if isBlank c || isBreak c then
        let gap ← plainGap start indent
        let s ← get
        return ((text, gap), inFlow || indent ≤ s.mark.column)
      else return ((text, data.2), false)) ([], ⟨false, false, [], []⟩)
  return text.reverse

/-- Reads a plain scalar. A key may follow it on a new line. -/
def plain : Scan Unit := do
  saveKey
  setKeyAllowed false
  dropHanging
  let s ← get
  let indent := s.indent + 1
  if 0 < s.flowLevel && s.mark.column < indent then fault .flowIndentation
  else
    let text ← plainText s.mark indent
    if (← get).lineIsBlank then setKeyAllowed true
    emit s.mark (.scalar .plain (.ofList text))

end Scan
end Yaml
end TypedConfig
