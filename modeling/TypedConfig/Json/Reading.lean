/-
# Reading the bytes of a JSON text

Key definitions: `Json.octets`, `Json.Cursor`, `Json.Read`.
-/
import TypedConfig.Json.Fault
import TypedConfig.Text.Repetition

namespace TypedConfig
namespace Json

/-- The bytes that encode a text, each as the character of its number. -/
def octets (text : String) : List Char :=
  text.toUTF8.toList.map fun byte => Char.ofNat byte.toNat

/-- How far a text was read: the line, counted from one, the number of bytes read on it,
the bytes that are left, and how many these are. -/
structure Cursor where
  line : Nat
  column : Nat
  rest : List Char
  left : Nat

/-- The cursor before the first byte of a text. -/
def Cursor.start (text : String) : Cursor := ⟨1, 0, octets text, (octets text).length⟩

/-- The cursor after the next byte. -/
def Cursor.next (cursor : Cursor) : Cursor :=
  match cursor.rest with
  | [] => cursor
  | c :: rest =>
    if c = '\n' then ⟨cursor.line + 1, 0, rest, cursor.left - 1⟩
    else ⟨cursor.line, cursor.column + 1, rest, cursor.left - 1⟩

/-- A step of reading, which may find a fault. -/
abbrev Read (α : Type) := StateT Cursor (Except Rejection) α

namespace Read

variable {α δ : Type}

/-- Reports a fault after the bytes read so far. -/
def fault (fault : Fault) : Read α := fun s => .error ⟨fault, s.line, s.column⟩

/-- Reports a fault after the next byte. -/
def faultAhead (fault : Fault) : Read α := fun s => .error ⟨fault, s.next.line, s.next.column⟩

/-- The next byte. -/
def peek? : Read (Option Char) := fun s => .ok (s.rest.head?, s)

/-- Reads the next byte. -/
def skip : Read Unit := modify Cursor.next

/-- The next byte, which is read. -/
def next? : Read (Option Char) := do
  let c? ← peek?
  skip
  return c?

/-- Repeats a step on some data as long as the step asks to go on, which it may do only
after reading on. -/
def loop (step : δ → Read (δ × Bool)) (data : δ) : Read δ :=
  Text.repeatStep (·.left) step data

/-- Reads bytes of a class into a text. -/
def takeWhile (p : Char → Bool) : Read (List Char) := do
  let text ← loop (fun (text : List Char) => do
    match ← peek? with
    | some c =>
      if p c then
        skip
        return (c :: text, true)
      else return (text, false)
    | none => return (text, false)) []
  return text.reverse

/-- The next byte after spaces, tabs and line breaks. -/
def nextVisible? : Read (Option Char) := do
  let _ ← takeWhile fun c => c == ' ' || c == '\t' || c == '\n' || c == '\r'
  peek?

end Read
end Json
end TypedConfig
