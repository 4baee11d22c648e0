/-
# The types of plain scalars

A plain scalar is a number, a truth value or a null if it is spelled like one, and
a string otherwise. A whole number that is too large for 64 bits stays a string, so
that whoever decodes it can say so.

Key definitions: `spellsInteger`, `spellsDouble`, `plainNode`.
-/
import TypedConfig.Node
import TypedConfig.Number.Decimal

namespace TypedConfig
namespace Yaml

/-- Whether `cs` is an optional sign and at least one digit. -/
def spellsInteger (cs : List Char) : Bool := Number.isDigits (Number.splitSign cs).2

/-- Whether `c` may stand in a number with a fraction or a power of ten. -/
def isNumberChar (c : Char) : Bool :=
  Text.isDigit c || c == '+' || c == '-' || c == '.' || c == 'e' || c == 'E'

/-- Whether `cs` has a digit and is no word that happens to be read as a number. -/
def spellsDouble (cs : List Char) : Bool := cs.any Text.isDigit && cs.all isNumberChar

/-- The finite double that `cs` writes in digits. -/
def readFinite (cs : List Char) : Option Double :=
  match Number.readDouble cs with
  | some x => if x.isFinite && spellsDouble cs then some x else none
  | none => none

/-- The truth value that a text spells: small, capitalised or in capitals. -/
def readTruth (text : String) : Option Bool :=
  if text = "true" ∨ text = "True" ∨ text = "TRUE" then some true
  else if text = "false" ∨ text = "False" ∨ text = "FALSE" then some false
  else none

/-- Whether a text spells null. -/
def spellsNull (text : String) : Bool :=
  text == "null" || text == "Null" || text == "NULL" || text == "~" || text == ""

/-- The node of a plain scalar. -/
def plainNode (text : String) (place : Place) : Node :=
  match Number.readInt64 text.toList with
  | some k => .long k place
  | none =>
    if spellsInteger text.toList then .string text place
    else
      match readFinite text.toList, readTruth text with
      | some x, _ => .double x place
      | none, some b => .boolean b place
      | none, none => if spellsNull text then .null place else .string text place

end Yaml
end TypedConfig
