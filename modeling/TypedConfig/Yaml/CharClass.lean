/-
# Classes of characters in YAML

The null character stands for the end of the text.

Key definitions: `isEnd`, `isBreak`, `isBlank`, `isFlow`, `isWordChar`, `isAnchorChar`,
`isUriChar`, `isTagChar`.
-/
import TypedConfig.Text.Ascii

namespace TypedConfig
namespace Yaml

/-- Whether `c` ends the text. -/
def isEnd (c : Char) : Bool := c == '\x00'

/-- Whether `c` begins a line break. -/
def isBreak (c : Char) : Bool := c == '\n' || c == '\r'

/-- Whether `c` ends a line. -/
def isLineEnd (c : Char) : Bool := isBreak c || isEnd c

/-- Whether `c` is a space or a tab. -/
def isBlank (c : Char) : Bool := c == ' ' || c == '\t'

/-- Whether a word cannot go on with `c`. -/
def isGap (c : Char) : Bool := isBlank c || isLineEnd c

/-- Whether `c` structures flow collections. -/
def isFlow (c : Char) : Bool := c == ',' || c == '[' || c == ']' || c == '\x7b' || c == '\x7d'

/-- Whether `c` is a character of a word, as the name of a directive or a tag handle is. -/
def isWordChar (c : Char) : Bool :=
  Text.isDigit c || ('a' ≤ c && c ≤ 'z') || ('A' ≤ c && c ≤ 'Z') || c == '_' || c == '-'

/-- Whether `c` may stand in the name of an anchor. -/
def isAnchorChar (c : Char) : Bool :=
  !isBreak c && c != '\ufeff' && !isBlank c && !isFlow c && !isEnd c

/-- The marks that may stand in a tag beside letters, digits and dashes. -/
def uriMarks : List Char := "#;/?:@&=+$,_.!~*'()[]%".toList

/-- Whether `c` may stand in a tag written out in full. -/
def isUriChar (c : Char) : Bool := (isWordChar c && c != '_') || uriMarks.contains c

/-- Whether `c` may stand in the suffix of a tag. -/
def isTagChar (c : Char) : Bool := isUriChar c && !isFlow c && c != '!'

end Yaml
end TypedConfig
