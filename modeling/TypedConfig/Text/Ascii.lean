/-
# ASCII digits and letters

Key definitions: `isDigit`, `isHexDigit`, `hexValue`, `asciiLower`.
-/

namespace TypedConfig
namespace Text

/-- Whether `c` is one of the ten ASCII digits. -/
def isDigit (c : Char) : Bool := '0' ≤ c && c ≤ '9'

/-- Whether `c` is an ASCII digit to base sixteen. -/
def isHexDigit (c : Char) : Bool := isDigit c || ('a' ≤ c && c ≤ 'f') || ('A' ≤ c && c ≤ 'F')

/-- The value of a digit to base sixteen. -/
def hexValue (c : Char) : Nat :=
  if isDigit c then c.toNat - '0'.toNat
  else if 'a' ≤ c then c.toNat - 'a'.toNat + 10
  else c.toNat - 'A'.toNat + 10

/-- `c` as a small letter if it is an ASCII capital. -/
def asciiLower (c : Char) : Char := if 'A' ≤ c ∧ c ≤ 'Z' then Char.ofNat (c.toNat + 32) else c

/-- `s` with its ASCII capitals as small letters. -/
def asciiLowered (s : String) : String := String.ofList (s.toList.map asciiLower)

end Text
end TypedConfig
