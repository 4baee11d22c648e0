/-
# Blanks, line breaks and comments between tokens

Key definitions: `Scan.skipToLineEnd`, `Scan.skipToToken`, `Scan.skipSpaces`.
-/
import TypedConfig.Yaml.Scan

namespace TypedConfig
namespace Yaml
namespace Scan

/-- Skips the rest of the line. -/
def skipLine : Scan Unit :=
  loop (fun () => do
    if isLineEnd (← peek) then return ((), false)
    else
      skip
      return ((), true)) ()

/-- A new line allows a key, unless a flow collection is open. -/
def allowKeyInBlock : Scan Unit := update fun s =>
  if s.flowLevel = 0 then { s with keyAllowed := true } else s

/-- Whether a key may begin here. -/
def setKeyAllowed (allowed : Bool) : Scan Unit := update fun s => { s with keyAllowed := allowed }

/-- What was skipped on a line. -/
structure Skipped where
  tabs : Bool
  spaces : Bool

/-- Skips blanks and a comment up to the end of the line or the next token. A comment
needs a blank in front. -/
def skipToLineEnd (withTabs : Bool) : Scan Skipped :=
  loop (fun (skipped : Skipped) => do
    let c ← peek
    if c == ' ' then
      skipBlank
      return ({ skipped with spaces := true }, true)
    else if c == '\t' && withTabs then
      skipBlank
      return ({ skipped with tabs := true }, true)
    else if c == '#' then
      if !skipped.tabs && !skipped.spaces then fault .commentNotSeparated
      else
        skipLine
        return (skipped, true)
    else return (skipped, false)) ⟨false, false⟩

/-- Skips blanks, line breaks and comments up to the next token. A tab may not stand in
the indentation of a block unless the line is blank. -/
def skipToToken : Scan Unit :=
  loop (fun () => do
    let c ← peek
    let s ← get
    if c == '\t' && !s.indents.isEmpty && s.lineIsBlank && s.mark.column < s.indent then
      let _ ← skipToLineEnd true
      if isLineEnd (← peek) then return ((), true) else fault .tabAsIndentation
    else if isBlank c then
      skipBlank
      return ((), true)
    else if isBreak c then
      skipBreak
      allowKeyInBlock
      return ((), true)
    else if c == '#' then
      skipLine
      return ((), true)
    else return ((), false)) ()

/-- Skips spaces, line breaks and comments, of which there has to be a space or a line
break. -/
def skipSpaces : Scan Unit := do
  let found ← loop (fun (found : Bool) => do
    let c ← peek
    if c == ' ' then
      skipBlank
      return (true, true)
    else if isBreak c then
      skipBreak
      allowKeyInBlock
      return (true, true)
    else if c == '#' then
      skipLine
      return (found, true)
    else return (found, false)) false
  if !found then fault .missingWhitespace

end Scan
end Yaml
end TypedConfig
