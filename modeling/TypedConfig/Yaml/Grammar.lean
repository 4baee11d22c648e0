/-
# The events of the first document

What may follow is kept as a stack of expectations, the nearest one first. Each
step meets the nearest expectation with the next tokens and produces one event.
Where a key or a value was left out, the event is an empty scalar.

Key definitions: `Expectation`, `Grammar`, `Grammar.step`, `firstDocument`.
-/
import TypedConfig.Yaml.Event

namespace TypedConfig
namespace Yaml

/-- What is to come next. `first` tells that the token which begins the collection comes
before it. -/
inductive Expectation where
  | stream
  | document
  | content
  | documentEnd
  | node
  | blockEntry (first : Bool)
  /-- An entry of a sequence that is not indented further than the key it belongs to. -/
  | bareEntry
  | blockKey (first : Bool)
  | blockValue
  | flowEntry (first : Bool)
  | pairKey
  | pairValue
  | pairEnd
  | flowKey (first : Bool)
  | flowValue
  /-- The value of a flow key without a colon. -/
  | noValue
deriving DecidableEq

/-- The state of reading events. -/
structure Grammar where
  tokens : List Token
  /-- The fault that comes after the tokens. -/
  fault : Malformed
  expected : List Expectation
  /-- The handles of tags that the directives declare. -/
  handles : List String
  /-- The anchors seen so far. -/
  anchors : List String

namespace Grammar

/-- A step of reading events, which may find a fault. -/
abbrev Step (α : Type) := StateT Grammar (Except Malformed) α

variable {α : Type}

/-- Reports a fault at a mark. -/
def faultAt (mark : Mark) (fault : Fault) : Step α := fun _ => .error ⟨fault, mark⟩

/-- The next token. -/
def peek : Step Token := fun g =>
  match g.tokens with
  | token :: _ => .ok (token, g)
  | [] => .error g.fault

/-- Reads on to the token after the next one. -/
def skip : Step Unit := modify fun g => { g with tokens := g.tokens.tail }

/-- The nearest expectation is met. -/
def met : Step Unit := modify fun g => { g with expected := g.expected.tail }

/-- The nearest expectation gives way to others. -/
def expect (expected : List Expectation) : Step Unit := modify fun g =>
  { g with expected := expected ++ g.expected.tail }

/-- The scalar that stands for a node that was left out. -/
def omitted (mark : Mark) : Event := .scalar mark .plain ""

/-! ### Nodes -/

/-- Checks that the handle of a tag was declared. Handles of one mark or none, and the
one of two marks, need no declaration. -/
def checkHandle (mark : Mark) (handle : String) : Step Unit := do
  let named : Bool := 2 ≤ handle.length && handle != "!!" && handle.toList.getLast? == some '!'
  if named && !(← get).handles.contains handle then faultAt mark .unknownHandle

/-- Reads an anchor, if one is next. -/
def anchor? : Step Bool := do
  match (← peek).kind with
  | .anchor name =>
    skip
    modify fun g => { g with anchors := name :: g.anchors }
    return true
  | _ => return false

/-- Reads a tag, if one is next. What is wrong with it is reported at `mark`, or at the
tag. -/
def tag? (mark? : Option Mark) : Step Bool := do
  let token ← peek
  match token.kind with
  | .tag handle _ =>
    skip
    checkHandle (mark?.getD token.mark) handle
    return true
  | _ => return false

/-- Reads an anchor and a tag in either order, if they are next. -/
def properties : Step Bool := do
  let mark := (← peek).mark
  if ← anchor? then
    let _ ← tag? (some mark)
    return true
  else if ← tag? none then
    let _ ← anchor?
    return true
  else return false

/-- Reads the beginning of a node in place of the nearest expectation. In a flow
collection no block may begin; only after a key or a colon, entries may follow that are
not indented further. After an anchor or a tag the node may be empty. -/
def node (block bare : Bool) : Step Event := do
  let token ← peek
  match token.kind with
  | .reference name =>
    skip
    if (← get).anchors.contains name then
      met
      return .reference token.mark
    else faultAt token.mark .unknownAnchor
  | _ =>
    let marked ← properties
    let token ← peek
    match token.kind, block, bare with
    | .blockEntry, _, true =>
      expect [.bareEntry]
      return .sequenceStart token.mark
    | .scalar style text, _, _ =>
      met
      skip
      return .scalar token.mark style text
    | .flowSequenceStart, _, _ =>
      expect [.flowEntry true]
      return .sequenceStart token.mark
    | .flowMappingStart, _, _ =>
      expect [.flowKey true]
      return .mappingStart token.mark
    | .blockSequenceStart, true, _ =>
      expect [.blockEntry true]
      return .sequenceStart token.mark
    | .blockMappingStart, true, _ =>
      expect [.blockKey true]
      return .mappingStart token.mark
    | _, _, _ =>
      if marked then
        met
        return omitted token.mark
      else faultAt token.mark .nodeContent

/-- Reads a node, and after it expects what is given. -/
def nodeThen (next : Expectation) (block bare : Bool) : Step Event := do
  expect [.node, next]
  node block bare

/-- A node was left out, and what is given is expected next. -/
def omittedThen (next : Expectation) (mark : Mark) : Step Event := do
  expect [next]
  return omitted mark

/-- A collection ends with the next token. -/
def close (event : Event) : Step Event := do
  met
  skip
  return event

/-! ### Documents -/

/-- Reads directives. The handle of the last one is the only one that stays declared. -/
def directives : Nat → Bool → Step Unit
  | 0, _ => pure ()
  | n + 1, versioned => do
    let token ← peek
    match token.kind with
    | .versionDirective =>
      if versioned then faultAt token.mark .versionTwice
      else
        modify fun g => { g with handles := [] }
        skip
        directives n true
    | .tagDirective handle _ =>
      modify fun g => { g with handles := [handle] }
      skip
      directives n versioned
    | _ => pure ()

/-- Passes over ends of documents that have no beginning. -/
def skipEnds : Nat → Step Unit
  | 0 => pure ()
  | n + 1 => do
    if (← peek).kind = .documentEnd then
      skip
      skipEnds n

/-- Reads the beginning of a document. Directives need an indicator after them. -/
def document : Step Event := do
  let count := (← get).tokens.length
  skipEnds count
  let explicit : Step Event := do
    directives count false
    let token ← peek
    if token.kind = .documentStart then
      skip
      expect [.content, .documentEnd]
      return .documentStart
    else faultAt token.mark .documentStart
  match (← peek).kind with
  | .streamEnd => close .streamEnd
  | .versionDirective | .tagDirective .. | .documentStart => explicit
  | _ =>
    expect [.node, .documentEnd]
    return .documentStart

/-- Reads the content of a document that began with an indicator. -/
def content : Step Event := do
  let token ← peek
  match token.kind with
  | .versionDirective | .tagDirective .. | .documentStart | .documentEnd | .streamEnd =>
    met
    return omitted token.mark
  | _ => node true false

/-- Reads the end of a document. Without an indicator no directive may follow. -/
def documentEnd : Step Event := do
  let token ← peek
  match token.kind with
  | .versionDirective | .tagDirective .. => faultAt token.mark .directiveNeedsDocumentEnd
  | _ => return .documentEnd

/-! ### Block collections -/

/-- Reads an entry of a block sequence, or its end. -/
def blockEntry : Step Event := do
  let token ← peek
  match token.kind with
  | .blockEnd => close .sequenceEnd
  | .blockEntry =>
    skip
    let next ← peek
    match next.kind with
    | .blockEntry | .blockEnd => omittedThen (.blockEntry false) next.mark
    | _ => nodeThen (.blockEntry false) true false
  | _ => faultAt token.mark .sequenceEntry

/-- Reads an entry of a sequence that is not indented further than its key, or its
end. -/
def bareEntry : Step Event := do
  if (← peek).kind = .blockEntry then
    skip
    let next ← peek
    match next.kind with
    | .blockEntry | .key | .value | .blockEnd => omittedThen .bareEntry next.mark
    | _ => nodeThen .bareEntry true false
  else
    met
    return .sequenceEnd

/-- Reads what follows a key or a colon in a block mapping. -/
def blockPart (after : Expectation) : Step Event := do
  let next ← peek
  match next.kind with
  | .key | .value | .blockEnd => omittedThen after next.mark
  | _ => nodeThen after true true

/-- Reads a key of a block mapping, or its end. -/
def blockKey : Step Event := do
  let token ← peek
  match token.kind with
  | .key =>
    skip
    blockPart .blockValue
  | .value => omittedThen .blockValue token.mark
  | .blockEnd => close .mappingEnd
  | _ => faultAt token.mark .mappingKey

/-- Reads a value of a block mapping. -/
def blockValue : Step Event := do
  let token ← peek
  match token.kind with
  | .value =>
    skip
    blockPart (.blockKey false)
  | _ => omittedThen (.blockKey false) token.mark

/-! ### Flow collections -/

/-- Reads the comma in front of an entry other than the first, unless the collection
ends. -/
def comma (first : Bool) (last : TokenKind) (fault : Fault) : Step Unit := do
  let token ← peek
  if token.kind = last || first then pure ()
  else if token.kind = .flowEntry then skip
  else faultAt token.mark fault

/-- Reads an entry of a flow sequence, or its end. An entry that begins with a key is a
pair without braces. -/
def flowEntry (first : Bool) : Step Event := do
  comma first .flowSequenceEnd .flowSequenceEnd
  let token ← peek
  match token.kind with
  | .flowSequenceEnd => close .sequenceEnd
  | .key =>
    skip
    expect [.pairKey, .pairValue, .pairEnd, .flowEntry false]
    return .mappingStart token.mark
  | _ => nodeThen (.flowEntry false) false false

/-- Reads the key of a pair without braces. -/
def pairKey : Step Event := do
  let token ← peek
  match token.kind with
  | .value | .flowEntry | .flowSequenceEnd =>
    skip
    met
    return omitted token.mark
  | _ => node false false

/-- Reads the value of a pair without braces. -/
def pairValue : Step Event := do
  let token ← peek
  match token.kind with
  | .value =>
    skip
    let next ← peek
    match next.kind with
    | .flowEntry | .flowSequenceEnd =>
      met
      return omitted next.mark
    | _ => node false false
  | _ =>
    met
    return omitted token.mark

/-- Reads a key of a flow mapping, or its end. -/
def flowKey (first : Bool) : Step Event := do
  comma first .flowMappingEnd .flowMappingEnd
  let token ← peek
  match token.kind with
  | .key =>
    skip
    let next ← peek
    match next.kind with
    | .value | .flowEntry | .flowMappingEnd => omittedThen .flowValue next.mark
    | _ => nodeThen .flowValue false false
  | .value => omittedThen .flowValue token.mark
  | .flowMappingEnd => close .mappingEnd
  | _ => nodeThen .noValue false false

/-- Reads a value of a flow mapping. One that is left out after a colon is marked at the
colon. -/
def flowValue : Step Event := do
  let token ← peek
  match token.kind with
  | .value =>
    skip
    match (← peek).kind with
    | .flowEntry | .flowMappingEnd => omittedThen (.flowKey false) token.mark
    | _ => nodeThen (.flowKey false) false false
  | _ => omittedThen (.flowKey false) token.mark

/-! ### The document -/

/-- Reads what is expected next as an event. -/
def step : Step Event := do
  match (← get).expected with
  | [] => return .streamEnd
  | .stream :: _ =>
    skip
    expect [.document]
    return .streamStart
  | .document :: _ => document
  | .content :: _ => content
  | .documentEnd :: _ => documentEnd
  | .node :: _ => node true false
  | .blockEntry first :: _ =>
    if first then skip
    blockEntry
  | .bareEntry :: _ => bareEntry
  | .blockKey first :: _ =>
    if first then skip
    blockKey
  | .blockValue :: _ => blockValue
  | .flowEntry first :: _ =>
    if first then skip
    flowEntry first
  | .pairKey :: _ => pairKey
  | .pairValue :: _ => pairValue
  | .pairEnd :: _ =>
    met
    return .mappingEnd
  | .flowKey first :: _ =>
    if first then skip
    flowKey first
  | .flowValue :: _ => flowValue
  | .noValue :: _ => omittedThen (.flowKey false) (← peek).mark

/-- Reads events up to the end of a document or of the stream. -/
def run : Nat → Grammar → List Event → Except Malformed (List Event)
  | 0, _, events => .ok events.reverse
  | n + 1, g, events =>
    match step g with
    | .error fault => .error fault
    | .ok (event, g) =>
      if event = .documentEnd ∨ event = .streamEnd then .ok (event :: events).reverse
      else run n g (event :: events)

end Grammar

/-- The events of the first document of a text. Between two tokens there are at most three
events, which stand for what was left out. -/
def firstDocument (stream : TokenStream) : Except Malformed (List Event) :=
  let fault := stream.fault?.getD ⟨.missingToken, .start⟩
  Grammar.run (4 * stream.tokens.length + 4) ⟨stream.tokens, fault, [.stream], [], []⟩ []

end Yaml
end TypedConfig
