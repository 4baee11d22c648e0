/-
# Quoted text

A text shown inside a message stands between double quotes. Tabs, line breaks
and the null character have short names, the quote and the backslash carry a
backslash, and a character with no visible form is shown by its number.

Key definitions: `escaped`, `quoted`.
-/
import TypedConfig.Text.Unprintable

namespace TypedConfig
namespace Text

/-- The digits of `n` to base sixteen. -/
def hexDigits (n : Nat) : List Char := Nat.toDigits 16 n

/-- How one character is written inside quotes. -/
def escaped (c : Char) : List Char :=
  if c = '\x00' then ['\\', '0']
  else if c = '\t' then ['\\', 't']
  else if c = '\r' then ['\\', 'r']
  else if c = '\n' then ['\\', 'n']
  else if c = '\\' then ['\\', '\\']
  else if c = '"' then ['\\', '"']
  else if isUnprintable c then ['\\', 'u', '\x7b'] ++ hexDigits c.toNat ++ ['\x7d']
  else [c]

/-- `s` between double quotes. -/
def quoted (s : String) : String := String.ofList (['"'] ++ s.toList.flatMap escaped ++ ['"'])

end Text
end TypedConfig
