/-
# Indentation and keys

A block begins where a collection is indented further than the one around it, and
ends at the first line indented less. A token that a key could be is remembered,
so that the tokens of the key can be put in front of it once a colon follows.

Key definitions: `Scan.rollIndent`, `Scan.unrollIndent`, `Scan.saveKey`,
`Scan.dropStaleKeys`.
-/
import TypedConfig.Yaml.Scan

namespace TypedConfig
namespace Yaml
namespace Scan

/-- Goes back over indentations deeper than `column`, from the innermost, and counts the
blocks that end on the way. -/
def unrollFrom (column : Int) : Int → List Indent → Int × List Indent × Nat
  | indent, [] => (indent, [], 0)
  | indent, outer :: outers =>
    if column < indent then
      let (indent', indents', ends) := unrollFrom column outer.column outers
      (indent', indents', if outer.endsBlock then ends + 1 else ends)
    else (indent, outer :: outers, 0)

/-- Ends the blocks that are indented further than `column`. Flow collections know no
indentation. -/
def unrollIndent (column : Int) : Scan Unit := update fun s =>
  if 0 < s.flowLevel then s
  else
    let (indent, indents, ends) := unrollFrom column s.indent s.indents
    { s with
      indent, indents
      tokens := List.replicate ends ⟨s.mark, .blockEnd⟩ ++ s.tokens
      count := s.count + ends }

/-- Goes back over the innermost indentations that no block ends with. -/
def unrollHanging : Int → List Indent → Int × List Indent
  | indent, [] => (indent, [])
  | indent, outer :: outers =>
    if outer.endsBlock then (indent, outer :: outers) else unrollHanging outer.column outers

/-- Forgets the indentations that no block ends with. -/
def dropHanging : Scan Unit := update fun s =>
  let (indent, indents) := unrollHanging s.indent s.indents
  { s with indent, indents }

/-- Begins a block at `column` if it is indented further than the current one. The token
of its beginning goes in front of the token that `token?` tokens precede, or at the
end. -/
def rollIndent (column : Nat) (token? : Option Nat) (mark : Mark) (kind : TokenKind) :
    Scan Unit := do
  let s ← get
  if s.flowLevel = 0 then
    match s.indents with
    | outer :: outers =>
      if s.indent ≤ column ∧ !outer.endsBlock then
        update fun s => { s with indent := outer.column, indents := outers }
    | [] => pure ()
    let s ← get
    if s.indent < column then
      update fun s =>
        { s with indents := ⟨s.indent, true⟩ :: s.indents, indent := column }
      match token? with
      | some token => emitBefore token mark kind
      | none => emit mark kind

/-- Indents what follows in the current block by one column more. -/
def hangIndent : Scan Unit := update fun s =>
  match s.flowLevel, s.indents with
  | 0, outer :: _ =>
    if outer.endsBlock then
      { s with indents := ⟨s.indent, false⟩ :: s.indents, indent := s.indent + 1 }
    else s
  | _, _ => s

/-! ### Keys -/

/-- Remembers that the next token is a key if a colon follows. -/
def saveKey : Scan Unit := update fun s =>
  if s.keyAllowed then
    let required :=
      s.flowLevel = 0 && s.indent = (s.mark.column : Int) &&
        (match s.indents with
          | outer :: _ => outer.endsBlock
          | [] => false)
    { s with keys := ⟨true, required, s.count, s.mark⟩ :: s.keys.tail }
  else s

/-- Forgets the possible key of the innermost collection. -/
def forgetKey : Scan Unit := update fun s =>
  match s.keys with
  | key :: keys => { s with keys := { key with possible := false } :: keys }
  | [] => s

/-- Forgets the possible key of the innermost collection, which must not be required. -/
def removeKey : Scan Unit := do
  match (← get).keys with
  | key :: _ => if key.possible && key.required then fault .keyExpected else forgetKey
  | [] => pure ()

/-- Whether a colon comes too late for the key: in a block a key ends on its line and has
at most 1024 characters. -/
def isStale (s : ScanState) (key : SimpleKey) : Bool :=
  key.possible && s.flowLevel = 0 &&
    (key.mark.line < s.mark.line || key.mark.index + 1024 < s.mark.index)

/-- Forgets the keys for which a colon comes too late; none of them may be required. -/
def dropStaleKeys : Scan Unit := do
  let s ← get
  if s.keys.any fun key => isStale s key && key.required then fault .staleKey
  else
    update fun s =>
      { s with
        keys := s.keys.map fun key =>
          if isStale s key then { key with possible := false } else key }

/-! ### Flow collections -/

/-- The deepest nesting of flow collections. -/
def flowLimit : Nat := 255

/-- Enters a flow collection. -/
def enterFlow : Scan Unit := do
  update fun s => { s with keys := SimpleKey.none :: s.keys }
  if (← get).flowLevel < flowLimit then
    update fun s => { s with flowLevel := s.flowLevel + 1 }
  else fault .flowDepth

/-- Leaves a flow collection. -/
def leaveFlow : Scan Unit := update fun s =>
  if 0 < s.flowLevel then { s with flowLevel := s.flowLevel - 1, keys := s.keys.tail } else s

/-- Ends the pair without braces that is open. -/
def endPair (mark : Mark) : Scan Unit := do
  if (← get).pairOpen then
    update fun s => { s with flowMappingStarted := false, pairOpen := false }
    emit mark .flowMappingEnd

end Scan
end Yaml
end TypedConfig
