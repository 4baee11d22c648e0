/-
# Marks of structure

Single characters begin, end and divide the collections. A colon is what tells that
a key was read: the token of the key, and of a mapping that begins with it, are put
in front of the tokens that the key consists of.

Key definitions: `Scan.flowStart`, `Scan.flowEnd`, `Scan.blockEntry`, `Scan.explicitKey`,
`Scan.mappingValue`.
-/
import TypedConfig.Yaml.Indentation
import TypedConfig.Yaml.Spacing

namespace TypedConfig
namespace Yaml
namespace Scan

/-! ### Flow collections -/

/-- Begins a flow collection, which could be a key. -/
def flowStart (kind : TokenKind) : Scan Unit := do
  saveKey
  hangIndent
  enterFlow
  setKeyAllowed true
  let start ← here
  skip
  if kind = .flowMappingStart then update fun s => { s with flowMappingStarted := true }
  let _ ← skipToLineEnd true
  emit start kind

/-- Ends a flow collection, and before it an open pair without braces, whether it belongs
to this collection or to one around it. Inside of another one, a colon may follow it at
once. -/
def flowEnd (kind : TokenKind) : Scan Unit := do
  removeKey
  leaveFlow
  setKeyAllowed false
  let start ← here
  endPair start
  skip
  let _ ← skipToLineEnd true
  update fun s => if 0 < s.flowLevel then { s with adjacentValueAt := s.mark.index } else s
  emit start kind

/-- Divides the entries of a flow collection. -/
def flowEntry : Scan Unit := do
  removeKey
  setKeyAllowed true
  let start ← here
  endPair start
  skip
  let _ ← skipToLineEnd true
  emit start .flowEntry

/-! ### Block collections -/

/-- Whether a token belongs to a node that is yet to come. -/
def isProperty : TokenKind → Bool
  | .anchor _ | .tag .. => true
  | _ => false

/-- Begins an entry of a block sequence. Its token is marked where the entry begins, not
where the dash is. -/
def blockEntry : Scan Unit := do
  let s ← get
  if 0 < s.flowLevel then fault .blockEntryInFlow
  if !s.keyAllowed then fault .blockEntryHere
  match s.tokens.head? with
  | some last =>
    if s.handedOut < s.count && isProperty last.kind && s.mark.column = 0 && last.mark.column = 0 && -1 < s.indent then
      faultAt last.mark .anchorIndentation
  | none => pure ()
  skip
  rollIndent s.mark.column none s.mark .blockSequenceStart
  let skipped ← skipToLineEnd true
  if skipped.tabs && (← peek) == '-' && isGap (← peekAt 1) then fault .blockEntryTab
  let c ← peek
  if isBreak c || isFlow c then hangIndent
  removeKey
  setKeyAllowed true
  emit (← here) .blockEntry

/-- Begins a key with a question mark. -/
def explicitKey : Scan Unit := do
  let start ← here
  let inFlow : Bool := 0 < (← get).flowLevel
  if inFlow then update fun s => { s with flowMappingStarted := true }
  else
    if !(← get).keyAllowed then fault .keyHere
    rollIndent start.column none start .blockMappingStart
  removeKey
  setKeyAllowed (!inFlow)
  skip
  skipSpaces
  if (← peek) == '\t' then fault .keyTab
  emit start .key

/-! ### Values -/

/-- Whether the colon makes a pair without braces in a flow collection. -/
def isPair (s : ScanState) : Bool := 0 < s.flowLevel && !s.flowMappingStarted

/-- Puts a key in front of the tokens that were read since `key`. -/
def valueOfKey (key : SimpleKey) (start : Mark) (pair : Bool) : Scan Unit := do
  emitBefore key.token key.mark .key
  if pair then
    if key.mark.line < start.line then faultAt start .valuePlacement
    emitBefore key.token (← here) .flowMappingStart
  rollIndent key.mark.column (some key.token) start .blockMappingStart
  hangIndent
  forgetKey
  setKeyAllowed false

/-- Reads a colon that follows a key begun with a question mark, or no key at all. -/
def valueAlone (start : Mark) (pair : Bool) : Scan Unit := do
  if pair then emit (← here) .flowMappingStart
  let inFlow : Bool := 0 < (← get).flowLevel
  if !inFlow then
    if !(← get).keyAllowed then faultAt start .valueHere
    rollIndent start.column none start .blockMappingStart
  hangIndent
  setKeyAllowed (!inFlow)

/-- Reads a colon in front of a value. A tab may follow it only if a space does, too, or
if the value does not begin with a character of a word. -/
def mappingValue : Scan Unit := do
  let s ← get
  let start := s.mark
  let pair := isPair s
  update fun s => { s with pairOpen := pair }
  skip
  if (← peek) == '\t' then
    let skipped ← skipToLineEnd true
    let c ← peek
    if !skipped.spaces && isWordChar c then fault .valueTab
  match s.keys with
  | key :: _ => if key.possible then valueOfKey key start pair else valueAlone start pair
  | [] => valueAlone start pair
  emit start .value

end Scan
end Yaml
end TypedConfig
