/-
# Decimal numerals

A decimal numeral is an optional sign, digits with an optional point among or
around them, and an optional power of ten; or, in any letter case, one of the
words for infinity and for no number. It is read as the double nearest to its
exact value.

Key definitions: `Decimal`, `readDecimal`, `Decimal.toDouble`, `readDouble`.
-/
import TypedConfig.Number.Double
import TypedConfig.Number.Integer

namespace TypedConfig
namespace Number

/-- The exact value `± digits · 10 ^ power`. -/
structure Decimal where
  negative : Bool
  digits : Nat
  power : Int
deriving DecidableEq

/-- Reads `[e|E] [sign] digits` after the digits of a numeral: the power of ten, which
is nought when nothing follows. -/
def readPower : List Char → Option Int
  | [] => some 0
  | c :: cs => if c = 'e' ∨ c = 'E' then readInteger cs else none

/-- Reads `digits [. [digits]] | . digits` and the power of ten after it. -/
def readUnsigned (negative : Bool) (cs : List Char) : Option Decimal :=
  let whole := cs.takeWhile Text.isDigit
  let afterWhole := cs.dropWhile Text.isDigit
  let places :=
    match afterWhole with
    | '.' :: more => more.takeWhile Text.isDigit
    | _ => []
  let rest :=
    match afterWhole with
    | '.' :: more => more.dropWhile Text.isDigit
    | _ => afterWhole
  if whole.isEmpty && places.isEmpty then none
  else
    (readPower rest).map fun power =>
      ⟨negative, digitsValue (whole ++ places), power - places.length⟩

/-- The exact value of a decimal numeral. -/
def readDecimal (cs : List Char) : Option Decimal :=
  readUnsigned (splitSign cs).1 (splitSign cs).2

/-- The double nearest to a decimal value. Powers of ten far beyond the range of
doubles are cut off first: below half of the least double all is nought, above
the largest all is infinite. -/
def Decimal.toDouble (d : Decimal) : Double :=
  if d.digits = 0 then .ofMagnitude d.negative 0
  else
    let places : Int := (naturalText d.digits).length
    if 310 < places + d.power then .ofMagnitude d.negative Double.infinite
    else if places + d.power < -330 then .ofMagnitude d.negative 0
    else .ofRatio d.negative (d.digits * Nat.pow 10 d.power.toNat) (Nat.pow 10 (-d.power).toNat)

/-- The words for infinity and for no number, with the magnitude they stand for. -/
def doubleWords : List (List Char × Nat) :=
  [(['i', 'n', 'f'], Double.infinite),
   (['i', 'n', 'f', 'i', 'n', 'i', 't', 'y'], Double.infinite),
   (['n', 'a', 'n'], Double.infinite + Nat.pow 2 51)]

/-- The double that `cs` writes, as a numeral or as a word in any letter case. -/
def readDouble (cs : List Char) : Option Double :=
  match readDecimal cs with
  | some d => some d.toDouble
  | none =>
    (doubleWords.lookup ((splitSign cs).2.map Text.asciiLower)).map (.ofMagnitude (splitSign cs).1)

end Number
end TypedConfig
