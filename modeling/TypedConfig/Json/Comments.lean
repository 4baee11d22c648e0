/-
# Comments in JSON

Two slashes begin a comment up to the end of the line, and a slash with a star one
up to a star with a slash, unless they are in a string. A comment is blanked out:
every character of it but the line breaks becomes a space, so that all that is left
keeps its line and column.

Key definitions: `Lexical`, `blankComments`.
-/

namespace TypedConfig
namespace Json

/-- What the next character belongs to. A block comment remembers the line and the column
where it began. -/
inductive Lexical where
  | code
  | string
  /-- A string, right after a backslash. -/
  | escape
  | line
  | block (line column : Nat)
deriving DecidableEq

/-- Where a block comment that has no end begins: its line and its column. -/
structure OpenComment where
  line : Nat
  column : Nat
deriving DecidableEq

/-- What comes after a character that is kept, in code or in a string. -/
def Lexical.after (lexical : Lexical) (c : Char) : Lexical :=
  match lexical with
  | .code => if c = '"' then .string else .code
  | .string => if c = '\\' then .escape else if c = '"' then .code else .string
  | _ => .string

/-- The line after a character. -/
def nextLine (line : Nat) (c : Char) : Nat := if c = '\n' then line + 1 else line

/-- The column after a character. -/
def nextColumn (column : Nat) (c : Char) : Nat := if c = '\n' then 0 else column + 1

/-- Blanks out the comments in what is left of a text. -/
def blankFrom : Lexical → Nat → Nat → List Char → Except OpenComment (List Char)
  | .block line column, _, _, [] => .error ⟨line, column⟩
  | _, _, _, [] => .ok []
  | .code, line, column, '/' :: '/' :: cs =>
    (blankFrom .line line (column + 2) cs).map (' ' :: ' ' :: ·)
  | .code, line, column, '/' :: '*' :: cs =>
    (blankFrom (.block line column) line (column + 2) cs).map (' ' :: ' ' :: ·)
  | .block .., line, column, '*' :: '/' :: cs =>
    (blankFrom .code line (column + 2) cs).map (' ' :: ' ' :: ·)
  | .line, line, column, c :: cs =>
    if c = '\n' then (blankFrom .code (line + 1) 0 cs).map ('\n' :: ·)
    else (blankFrom .line line (column + 1) cs).map (' ' :: ·)
  | .block l k, line, column, c :: cs =>
    (blankFrom (.block l k) (nextLine line c) (nextColumn column c) cs).map
      ((if c = '\n' then '\n' else ' ') :: ·)
  | lexical, line, column, c :: cs =>
    (blankFrom (lexical.after c) (nextLine line c) (nextColumn column c) cs).map (c :: ·)

/-- The text with its comments blanked out. -/
def blankComments (text : String) : Except OpenComment String :=
  (blankFrom .code 0 0 text.toList).map String.ofList

end Json
end TypedConfig
