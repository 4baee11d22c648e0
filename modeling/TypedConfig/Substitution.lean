/-
# Substitution of variables

A text may refer to a variable as a dollar sign with the name in braces. Each
reference is replaced by the value of the variable; one to an unknown variable
stays as written, and the text that is put in is not looked at again.

Key definitions: `Substitution.Segment`, `Substitution.segments`,
`Substitution.substitute`, `Substitution.preprocessor`.
-/
import TypedConfig.Preprocessor

namespace TypedConfig
namespace Substitution

/-- A piece of text: a character that belongs to no reference, or a reference. -/
inductive Segment where
  | literal (c : Char)
  | reference (name : List Char)
deriving DecidableEq

/-- Whether `c` may stand in the name of a variable. -/
def inName (c : Char) : Bool := c != '\x7d'

/-- The name that `cs`, the text after an opening brace, begins with, and what follows
the closing brace. The name has at least one character and no closing brace. -/
def reference? (cs : List Char) : Option (List Char × List Char) :=
  match cs.takeWhile inName, cs.dropWhile inName with
  | c :: name, _ :: rest => some (c :: name, rest)
  | _, _ => none

theorem reference?_shorter {cs name rest : List Char} (h : reference? cs = some (name, rest)) :
    rest.length < cs.length := by
  have hle := (List.dropWhile_sublist (l := cs) inName).length_le
  unfold reference? at h
  split at h
  · next hd =>
    simp only [Option.some.injEq, Prod.mk.injEq] at h
    rw [hd, h.2, List.length_cons] at hle
    omega
  · simp at h

/-- The segments of a text from left to right: wherever a reference begins, it is taken
whole. -/
def segments : List Char → List Segment
  | [] => []
  | '$' :: '\x7b' :: cs =>
    match h : reference? cs with
    | some (name, rest) =>
      have : rest.length < cs.length := reference?_shorter h
      .reference name :: segments rest
    | none => .literal '$' :: segments ('\x7b' :: cs)
  | c :: cs => .literal c :: segments cs
termination_by cs => cs.length

/-- A segment as it was written. -/
def Segment.source : Segment → List Char
  | .literal c => [c]
  | .reference name => ['$', '\x7b'] ++ name ++ ['\x7d']

/-- What stands in the result for a segment. -/
def Segment.replaced (lookup : String → Option String) : Segment → List Char
  | .literal c => [c]
  | .reference name =>
    match lookup (String.ofList name) with
    | some value => value.toList
    | none => Segment.source (.reference name)

/-- The text with every reference to a known variable replaced by its value. -/
def substitute (lookup : String → Option String) (text : String) : String :=
  String.ofList ((segments text.toList).flatMap (·.replaced lookup))

/-- Whether the two characters that open a reference stand side by side in `cs`. -/
def hasOpening : List Char → Bool
  | '$' :: '\x7b' :: _ => true
  | _ :: cs => hasOpening cs
  | [] => false

/-- The preprocessor that substitutes variables in text nodes. It leaves every node
alone in which no reference opens. -/
def preprocessor (lookup : String → Option String) : Preprocessor
  | .string value place =>
    if hasOpening value.toList then some (.string (substitute lookup value) place) else none
  | _ => none

end Substitution
end TypedConfig
