/-
# Scanning a YAML text

The scanner reads the text once from left to right. Its state holds the text that
is left, the tokens found so far, and what decides how the next
characters are to be read: the open indentations, the open flow collections, and
the tokens that turn out to be keys if a colon follows.

Key definitions: `SimpleKey`, `Indent`, `ScanState`, `Scan`, `Scan.loop`.
-/
import TypedConfig.Text.Repetition
import TypedConfig.Yaml.CharClass
import TypedConfig.Yaml.Token

namespace TypedConfig
namespace Yaml

/-- A token that is a key if a colon follows. `token` counts the tokens before it. -/
structure SimpleKey where
  possible : Bool
  /-- Whether nothing but a key can stand here. -/
  required : Bool
  token : Nat
  mark : Mark
deriving Inhabited

/-- The key of a collection in which none has begun. Its mark is on no line. -/
def SimpleKey.none : SimpleKey := ⟨false, false, 0, ⟨0, 0, 0⟩⟩

/-- An indentation to go back to, and whether a block ends with the current one. -/
structure Indent where
  column : Int
  endsBlock : Bool

/-- The state of the scanner. -/
structure ScanState where
  rest : List Char
  /-- How many characters are left. -/
  left : Nat
  mark : Mark
  /-- Whether only blanks were read on this line so far. -/
  lineIsBlank : Bool
  /-- The tokens found so far, the last one first. -/
  tokens : List Token
  /-- How many tokens were found. -/
  count : Nat
  /-- How many tokens were handed out. No token is put in front of these any more. -/
  handedOut : Nat
  started : Bool
  keyAllowed : Bool
  /-- One key for each open flow collection and one for the blocks, the innermost first. -/
  keys : List SimpleKey
  indent : Int
  indents : List Indent
  flowLevel : Nat
  /-- Where a colon marks a value although no gap follows it. -/
  adjacentValueAt : Nat
  /-- Whether a flow mapping or a key with a question mark was begun since the last pair
  without braces ended. No such pair begins any more until one that is open ends. -/
  flowMappingStarted : Bool
  /-- Whether the last colon made a pair without braces that is still to be ended. -/
  pairOpen : Bool

/-- The state before the first character. -/
def ScanState.start (text : List Char) : ScanState where
  rest := text
  left := text.length
  mark := .start
  lineIsBlank := true
  tokens := []
  count := 0
  handedOut := 0
  started := false
  keyAllowed := true
  keys := []
  indent := -1
  indents := []
  flowLevel := 0
  adjacentValueAt := 0
  flowMappingStarted := false
  pairOpen := false

/-- A step of scanning, which may find a fault. -/
abbrev Scan (α : Type) := StateT ScanState (Except Malformed) α

namespace Scan

variable {α σ : Type}

/-- A part of the state. -/
def read (f : ScanState → α) : Scan α := fun s => .ok (f s, s)

/-- Changes the state. -/
def update (f : ScanState → ScanState) : Scan Unit := fun s => .ok ((), f s)

/-- Reports a fault at a mark. -/
def faultAt (mark : Mark) (fault : Fault) : Scan α := fun _ => .error ⟨fault, mark⟩

/-- Reports a fault here. -/
def fault (fault : Fault) : Scan α := fun s => .error ⟨fault, s.mark⟩

/-- Repeats a step on some data as long as the step asks to go on, which it may do only
after reading on. -/
def loop (step : σ → Scan (σ × Bool)) (data : σ) : Scan σ :=
  Text.repeatStep (·.left) step data

/-! ### Looking ahead and reading on -/

/-- Where the scanner is. -/
def here : Scan Mark := read (·.mark)

/-- The character `n` places ahead; after the text there are null characters. -/
def peekAt (n : Nat) : Scan Char := read fun s => s.rest[n]?.getD '\x00'

/-- The next character. -/
def peek : Scan Char := peekAt 0

/-- Reads a blank, or a character that does not count against a blank line. -/
def skipBlank : Scan Unit := update fun s =>
  { s with
    rest := s.rest.tail
    left := s.left - 1
    mark := ⟨s.mark.index + 1, s.mark.line, s.mark.column + 1⟩ }

/-- Reads a character other than a blank. -/
def skip : Scan Unit := update fun s =>
  { s with
    rest := s.rest.tail
    left := s.left - 1
    mark := ⟨s.mark.index + 1, s.mark.line, s.mark.column + 1⟩
    lineIsBlank := false }

/-- Reads several characters other than blanks. -/
def skipMany : Nat → Scan Unit
  | 0 => pure ()
  | n + 1 => do skip; skipMany n

/-- Reads the last character of a line break. -/
def skipNewline : Scan Unit := update fun s =>
  { s with
    rest := s.rest.tail
    left := s.left - 1
    mark := ⟨s.mark.index + 1, s.mark.line + 1, 0⟩
    lineIsBlank := true }

/-- Reads a line break of one or two characters, if one is next. -/
def skipBreak : Scan Unit := do
  if (← peek) == '\r' && (← peekAt 1) == '\n' then
    skipBlank
    skipNewline
  else if isBreak (← peek) then
    skipNewline

/-- Reads characters of a class into a text. -/
def takeWhile (p : Char → Bool) : Scan (List Char) := do
  let text ← loop (fun (text : List Char) => do
    let c ← peek
    if p c then
      skip
      return (c :: text, true)
    else return (text, false)) []
  return text.reverse

/-- Skips blanks. -/
def skipBlanks : Scan Unit :=
  loop (fun () => do
    if isBlank (← peek) then
      skipBlank
      return ((), true)
    else return ((), false)) ()

/-- Whether the line begins with three times `c` and a gap after them. -/
def atIndicator (c : Char) : Scan Bool := do
  let m ← here
  return m.column == 0 && (← peekAt 0) == c && (← peekAt 1) == c && (← peekAt 2) == c &&
    isGap (← peekAt 3)

/-- Whether the line begins with a document indicator. -/
def atDocumentIndicator : Scan Bool := do
  return (← atIndicator '-') || (← atIndicator '.')

/-! ### Tokens -/

/-- Puts a token behind all others. -/
def emit (mark : Mark) (kind : TokenKind) : Scan Unit := update fun s =>
  { s with tokens := ⟨mark, kind⟩ :: s.tokens, count := s.count + 1 }

/-- Puts a token in front of the one that is preceded by `token` tokens. -/
def emitBefore (token : Nat) (mark : Mark) (kind : TokenKind) : Scan Unit := update fun s =>
  { s with
    tokens := s.tokens.insertIdx (s.count - token) ⟨mark, kind⟩
    count := s.count + 1 }

end Scan
end Yaml
end TypedConfig
