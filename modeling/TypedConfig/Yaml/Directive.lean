/-
# Directives

A directive is a line of its own in front of a document, beginning with `%`. The
version of YAML and the handles of tags have directives; others are passed over.

Key definitions: `Scan.directive`.
-/
import TypedConfig.Yaml.Property

namespace TypedConfig
namespace Yaml
namespace Scan

/-- Reads the name of a directive. -/
def directiveName : Scan (List Char) := do
  let start ← here
  let name ← takeWhile isWordChar
  if name.isEmpty then faultAt start .directiveName
  else if isGap (← peek) then return name
  else faultAt start .directiveNameCharacter

/-- Reads a number of a version, which has at most nine digits. -/
def versionNumber (start : Mark) : Scan Unit := do
  let digits ← takeWhile Text.isDigit
  if 9 < digits.length then faultAt start .directiveVersionLong
  else if digits.isEmpty then faultAt start .directiveVersionDigit
  else pure ()

/-- Reads a version: two numbers and a point between them. -/
def version (start : Mark) : Scan TokenKind := do
  skipBlanks
  versionNumber start
  if (← peek) != '.' then faultAt start .directiveVersionPoint
  else
    skip
    versionNumber start
    return .versionDirective

/-- Reads a handle of tags and what it stands for. -/
def tagPrefix (start : Mark) : Scan TokenKind := do
  skipBlanks
  let handle ← tagHandle true start
  skipBlanks
  let text ← tagGlobal start
  if isGap (← peek) then return .tagDirective (.ofList handle) (.ofList text)
  else faultAt start .directiveTagEnd

/-- Reads a directive with its line break. One that is not known stands for nothing. -/
def directive : Scan Unit := do
  unrollIndent (-1)
  removeKey
  setKeyAllowed false
  let start ← here
  skip
  let name ← directiveName
  let kind ←
    if name = ['Y', 'A', 'M', 'L'] then version start
    else if name = ['T', 'A', 'G'] then tagPrefix start
    else do
      skipLine
      pure (.tagDirective "" "")
  let _ ← skipToLineEnd true
  if isLineEnd (← peek) then
    skipBreak
    emit start kind
  else faultAt start .directiveContent

end Scan
end Yaml
end TypedConfig
