/-
# Numbers in JSON

A number is an optional minus, digits without a needless nought in front, and
optionally a fraction and a power of ten. It is refused if it is too large for a
double, which is judged on its leading digits: those that fit an unsigned word of 64
bits, and the power of ten that the others amount to.

Key definitions: `Json.absorb`, `Json.overflows`, `Json.Read.number`.
-/
import TypedConfig.Json.Reading
import TypedConfig.Number.Double

namespace TypedConfig
namespace Json

/-- Puts digits behind a number as long as it fits an unsigned word of 64 bits; and how
many digits are left over. -/
def absorb : Nat → List Char → Nat × Nat
  | n, [] => (n, 0)
  | n, c :: cs =>
    let longer := 10 * n + (c.toNat - '0'.toNat)
    if UInt64.size ≤ longer then (n, cs.length + 1) else absorb longer cs

/-- `n` rounded to the precision of doubles, with no limit to its size. -/
def roundToDouble (n : Nat) : Nat :=
  let unit := Nat.pow 2 (n.log2 - 52)
  Double.divideToEven n unit * unit

/-- Whether `digits · 10 ^ power` is too large for a double, if first either factor and
then their product is rounded. -/
def overflows (digits : Nat) (power : Int) : Bool :=
  digits != 0 && 0 ≤ power &&
    (308 < power ||
      Nat.pow 2 1024 ≤
        roundToDouble (roundToDouble digits * roundToDouble (Nat.pow 10 power.toNat)))

namespace Read

/-- Reads digits. -/
def digits : Read (List Char) := takeWhile Text.isDigit

/-- Reads the digits after a point, of which there is at least one. -/
def fraction : Read (List Char) := do
  let places ← digits
  if !places.isEmpty then return places
  else
    match ← peek? with
    | some _ => faultAhead .number
    | none => faultAhead .endInValue

/-- Reads further digits of a power of ten up to the one with which it leaves a word of 32
bits. -/
def powerDigits (power : Nat) : Read Nat :=
  loop (fun (power : Nat) => do
    match ← peek? with
    | some c =>
      if Text.isDigit c then
        skip
        let power := 10 * power + (c.toNat - '0'.toNat)
        return (power, power < Nat.pow 2 31)
      else return (power, false)
    | none => return (power, false)) power

/-- Reads a power of ten after its letter. If it is beyond a word of 32 bits, the number
is too large unless its digits are noughts, and otherwise nought. -/
def power (digitsAreZero : Bool) : Read Int := do
  let c? ← peek?
  if c? = some '+' ∨ c? = some '-' then skip
  let negative := c? = some '-'
  match ← next? with
  | none => fault .endInValue
  | some c =>
    if !Text.isDigit c then fault .number
    else
      let power ← powerDigits (c.toNat - '0'.toNat)
      if power < Nat.pow 2 31 then return if negative then -power else power
      else if !digitsAreZero && !negative then fault .numberRange
      else
        let _ ← digits
        return Int32.minValue.toInt

/-- Reads the digits in front of the point: a nought alone, or digits that begin with
another one. -/
def whole : Read (List Char) := do
  match ← next? with
  | none => fault .endInValue
  | some c =>
    if c == '0' then
      match ← peek? with
      | some d => if Text.isDigit d then faultAhead .number else return [c]
      | none => return [c]
    else if Text.isDigit c then return c :: (← digits)
    else fault .number

/-- Reads a number after its sign. -/
def number : Read Unit := do
  let (significand, excess) := absorb 0 (← whole)
  let point ← peek?
  let (significand, shift) ←
    if point = some '.' then do
      skip
      let places ← fraction
      let (significand, left) := absorb significand places
      pure (significand, (excess : Int) - (places.length - left : Nat))
    else pure (significand, (excess : Int))
  let letter ← peek?
  let exponent ←
    if letter = some 'e' ∨ letter = some 'E' then do
      skip
      power (significand == 0)
    else pure 0
  if overflows significand (shift + exponent) then fault .numberRange

end Read
end Json
end TypedConfig
