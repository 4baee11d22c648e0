/-
# Blank characters

Text taken from a source is read without the blank characters around it. Blank
are the spaces, tabs and line breaks of every script, so the no-break space and
the ideographic space go as well as the plain one.

Key definitions: `isBlank`, `trim`.
-/
import TypedConfig.Text.CodePoints

namespace TypedConfig
namespace Text

/-- The code points of spaces, tabs and line breaks. -/
def blankRanges : List (Nat × Nat) :=
  [(9, 13), (32, 32), (133, 133), (160, 160), (5760, 5760), (8192, 8202), (8232, 8233),
   (8239, 8239), (8287, 8287), (12288, 12288)]

/-- Whether `c` is a space, a tab or a line break. -/
def isBlank (c : Char) : Bool := inRanges blankRanges c

/-- `cs` without the blank characters at its end. -/
def trimEnd (cs : List Char) : List Char := (cs.reverse.dropWhile isBlank).reverse

/-- `cs` without the blank characters at both ends. -/
def trim (cs : List Char) : List Char := trimEnd (cs.dropWhile isBlank)

/-- `s` without the blank characters at both ends. -/
def trimmed (s : String) : String := String.ofList (trim s.toList)

end Text
end TypedConfig
