/-
# The tokens of a text

The next characters decide which token is read. A token is handed out once no key
can come to stand in front of it any more, so a fault a little ahead of a token can
hide it.

Key definitions: `Scan.nextToken`, `Scan.handOut`, `TokenStream.ofText`.
-/
import TypedConfig.Yaml.BlockScalar
import TypedConfig.Yaml.Directive
import TypedConfig.Yaml.Indicator
import TypedConfig.Yaml.Plain

namespace TypedConfig
namespace Yaml
namespace Scan

/-- Begins the text. -/
def streamStart : Scan Unit := do
  update fun s =>
    { s with started := true, keyAllowed := true, keys := SimpleKey.none :: s.keys }
  emit (← here) .streamStart

/-- Ends the text on a line of its own, and with it all blocks. -/
def streamEnd : Scan Unit := do
  update fun s =>
    if s.mark.column = 0 then s
    else { s with mark := ⟨s.mark.index, s.mark.line + 1, 0⟩ }
  if (← get).keys.any fun key => key.required && key.possible then fault .keyExpected
  update fun s => { s with keys := s.keys.map fun key => { key with possible := false } }
  unrollIndent (-1)
  removeKey
  setKeyAllowed false
  emit (← here) .streamEnd

/-- Reads a document indicator, which ends all blocks. -/
def documentIndicator (kind : TokenKind) : Scan Unit := do
  unrollIndent (-1)
  removeKey
  setKeyAllowed false
  let start ← here
  skipMany 3
  emit start kind

/-- Reads the end of a document; nothing else may stand on its line. -/
def documentEnd : Scan Unit := do
  documentIndicator .documentEnd
  let _ ← skipToLineEnd true
  if !isLineEnd (← peek) then fault .contentAfterDocumentEnd

/-- Whether a colon introduces a value: it does in front of a gap and, in a flow
collection, in front of a mark of such or right after a key that ends with a mark. -/
def colonIsValue (s : ScanState) (next : Char) : Bool :=
  isGap next || (0 < s.flowLevel && (isFlow next || s.mark.index = s.adjacentValueAt))

/-- Reads a token that begins in the middle of a document. -/
def contentToken : Scan Unit := do
  let s ← get
  let c ← peek
  let next ← peekAt 1
  if s.mark.column < s.indent then fault .indentation
  else if c == '[' then flowStart .flowSequenceStart
  else if c == '\x7b' then flowStart .flowMappingStart
  else if c == ']' then flowEnd .flowSequenceEnd
  else if c == '\x7d' then flowEnd .flowMappingEnd
  else if c == ',' then flowEntry
  else if c == '-' && isGap next then blockEntry
  else if c == '?' && isGap next then explicitKey
  else if c == ':' && colonIsValue s next then mappingValue
  else if c == '*' then anchorName .reference
  else if c == '&' then anchorName .anchor
  else if c == '!' then tag
  else if c == '|' && s.flowLevel = 0 then blockScalar false
  else if c == '>' && s.flowLevel = 0 then blockScalar true
  else if c == '\'' then quoted true
  else if c == '"' then quoted false
  else if c == '%' || c == '@' || c.toNat = 0x60 then fault (.unexpectedCharacter c)
  else plain

/-- Reads the next token, with those that it brings along. -/
def nextToken : Scan Unit := do
  if !(← get).started then streamStart
  else
    skipToToken
    dropStaleKeys
    unrollIndent (← here).column
    if isEnd (← peek) then streamEnd
    else if (← here).column = 0 && (← peek) == '%' then directive
    else if ← atIndicator '-' then documentIndicator .documentStart
    else if ← atIndicator '.' then documentEnd
    else contentToken

/-- Whether a token could still be put in front of the next one to be handed out. -/
def needsMore : Scan Bool := do
  let s ← get
  if s.count ≤ s.handedOut then return true
  else
    dropStaleKeys
    let s ← get
    return s.keys.any fun key => key.possible && key.token = s.handedOut

/-- Reads until a token can be handed out. -/
def prepare : Nat → Scan Unit
  | 0 => pure ()
  | fuel + 1 => do
    if ← needsMore then
      nextToken
      prepare fuel

/-- Hands out a token. -/
def handOut (fuel : Nat) : Scan Unit := do
  prepare fuel
  let s ← get
  if s.handedOut < s.count then update fun s => { s with handedOut := s.handedOut + 1 }
  else fault .missingToken

end Scan

/-- The tokens handed out so far. -/
def ScanState.given (s : ScanState) : List Token := s.tokens.reverse.take s.handedOut

/-- Whether the end of the text was handed out. -/
def ScanState.isDone (s : ScanState) : Bool :=
  s.handedOut = s.count && s.tokens.head?.map (·.kind) == some .streamEnd

/-- Hands out tokens until the text ends or breaks a rule. -/
def tokensFrom (fuel : Nat) : Nat → ScanState → TokenStream
  | 0, s => ⟨s.given, none⟩
  | n + 1, s =>
    match Scan.handOut fuel s with
    | .error fault => ⟨s.given, some fault⟩
    | .ok (_, s) => if s.isDone then ⟨s.given, none⟩ else tokensFrom fuel n s

/-- The tokens of a text. Apart from the first and the last one, no character makes more than
four of them: a colon makes the most, with a key, a mapping around it and the end of that. -/
def TokenStream.ofText (text : String) : TokenStream :=
  let bound := text.length + 3
  tokensFrom bound (4 * bound) (.start text.toList)

end Yaml
end TypedConfig
