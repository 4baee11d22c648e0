/-
# Binary floating point numbers of 64 bits

A double is its 64 bits: a sign, an exponent of 11 bits and a fraction of 52.
All arithmetic here is exact arithmetic on natural numbers, so what is said
about a double holds for every bit pattern.

Key definitions: `Double`, `Double.same`, `Double.ofRatio`, `Double.ofInt64`.
-/

namespace TypedConfig

/-- A 64-bit floating point number, given by its bits. -/
structure Double where
  bits : UInt64
deriving DecidableEq, Inhabited

namespace Double

/-- Whether the sign bit is set. -/
def negative (x : Double) : Bool := Nat.pow 2 63 ≤ x.bits.toNat

/-- The bits without the sign: they order the magnitudes. -/
def magnitude (x : Double) : Nat := x.bits.toNat % Nat.pow 2 63

/-- The biased exponent. -/
def exponent (x : Double) : Nat := x.magnitude / Nat.pow 2 52

/-- The fraction field. -/
def fraction (x : Double) : Nat := x.magnitude % Nat.pow 2 52

/-- The magnitude of infinity; every larger magnitude is a NaN. -/
def infinite : Nat := 2047 * Nat.pow 2 52

/-- Whether `x` is not a number. -/
def isNaN (x : Double) : Bool := infinite < x.magnitude

/-- Whether `x` is neither infinite nor a NaN. -/
def isFinite (x : Double) : Bool := x.magnitude < infinite

/-- Numeric equality: a NaN equals nothing, the two zeros equal each other, and any
other number equals itself alone. -/
def same (x y : Double) : Bool :=
  !x.isNaN && !y.isNaN && (x.bits == y.bits || (x.magnitude == 0 && y.magnitude == 0))

/-- The double with the given sign and magnitude. -/
def ofMagnitude (negative : Bool) (magnitude : Nat) : Double :=
  ⟨UInt64.ofNat ((if negative then Nat.pow 2 63 else 0) + magnitude)⟩

/-- The whole significand of a finite number, with the hidden bit where there is one. -/
def significand (x : Double) : Nat :=
  if x.exponent = 0 then x.fraction else Nat.pow 2 52 + x.fraction

/-- The power of two that the whole significand is multiplied by. -/
def scale (x : Double) : Int := (max x.exponent 1 : Nat) - 1075

/-! ### Rounding -/

/-- `num / den` rounded to the nearest natural number, a half going to the even one. -/
def divideToEven (num den : Nat) : Nat :=
  let q := num / den
  let r := num % den
  if den < 2 * r ∨ (2 * r = den ∧ q % 2 = 1) then q + 1 else q

/-- The power of two at or just below `num / den`. -/
def floorLog2 (num den : Nat) : Int :=
  let guess : Int := (num.log2 : Int) - den.log2
  if den * Nat.pow 2 guess.toNat ≤ num * Nat.pow 2 (-guess).toNat then guess else guess - 1

/-- The magnitude of the double nearest to `num / den`, a half going to the even
fraction, and infinity beyond the largest double. -/
def nearestMagnitude (num den : Nat) : Nat :=
  if num = 0 then 0
  else
    let step := max (floorLog2 num den - 52) (-1074)
    let steps := divideToEven (num * Nat.pow 2 (-step).toNat) (den * Nat.pow 2 step.toNat)
    min ((step + 1074).toNat * Nat.pow 2 52 + steps) infinite

/-- The double nearest to `± num / den`. -/
def ofRatio (negative : Bool) (num den : Nat) : Double :=
  ofMagnitude negative (nearestMagnitude num den)

/-- The double nearest to a 64-bit whole number. -/
def ofInt64 (k : Int64) : Double := ofRatio (k.toInt < 0) k.toInt.natAbs 1

end Double
end TypedConfig
