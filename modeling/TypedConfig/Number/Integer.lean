/-
# Whole numbers written in decimal

A whole number is an optional sign and at least one digit, with any number of
leading zeros. Only numbers that fit a 64-bit word are read.

Key definitions: `readInteger`, `readInt64`, `integerText`.
-/
import TypedConfig.Text.Ascii

namespace TypedConfig
namespace Number

/-- The value of a row of digits, the most significant first. -/
def digitsValue (cs : List Char) : Nat :=
  cs.foldl (fun n c => 10 * n + (c.toNat - '0'.toNat)) 0

/-- Whether `cs` is a row of at least one digit. -/
def isDigits (cs : List Char) : Bool := !cs.isEmpty && cs.all Text.isDigit

/-- Splits an optional leading sign off; `true` stands for a minus. -/
def splitSign : List Char → Bool × List Char
  | '-' :: cs => (true, cs)
  | '+' :: cs => (false, cs)
  | cs => (false, cs)

/-- `n` with a sign; `true` stands for a minus. -/
def withSign (negative : Bool) (n : Nat) : Int := if negative then -(n : Int) else n

/-- The whole number that `cs` writes, of any size. -/
def readInteger (cs : List Char) : Option Int :=
  if isDigits (splitSign cs).2 then
    some (withSign (splitSign cs).1 (digitsValue (splitSign cs).2))
  else
    none

/-- Whether `k` fits a 64-bit word with a sign. -/
def fitsInt64 (k : Int) : Bool := Int64.minValue.toInt ≤ k && k ≤ Int64.maxValue.toInt

/-- Whether `k` fits a 32-bit word with a sign. -/
def fitsInt32 (k : Int) : Bool := Int32.minValue.toInt ≤ k && k ≤ Int32.maxValue.toInt

/-- The 64-bit number that `cs` writes. -/
def readInt64 (cs : List Char) : Option Int64 :=
  match readInteger cs with
  | some k => if fitsInt64 k then some (Int64.ofInt k) else none
  | none => none

/-- The decimal digits of `n`, without leading zeros. -/
def naturalText (n : Nat) : List Char := Nat.toDigits 10 n

/-- The decimal text of `k`, with a minus in front of a negative number. -/
def integerText (k : Int) : List Char :=
  match k with
  | .ofNat n => naturalText n
  | .negSucc n => '-' :: naturalText (n + 1)

end Number

/-- The decimal text of a natural number. -/
def natText (n : Nat) : String := String.ofList (Number.naturalText n)

/-- The decimal text of a 64-bit number. -/
def int64Text (k : Int64) : String := String.ofList (Number.integerText k.toInt)

end TypedConfig
