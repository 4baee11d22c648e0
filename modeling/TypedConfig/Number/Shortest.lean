/-
# The shortest decimal text of a double

A double is written with the fewest significant digits that read back as it; of
two such texts the nearer one is taken, and the larger when both are equally
near. A number is written out in full, without a power of ten, except in the
detailed form, which shows where a whole number is a double and turns to powers
of ten far from one.

Key definitions: `Shortest`, `Double.shortest`, `doubleText`, `doubleDetail`.
-/
import TypedConfig.Number.Double
import TypedConfig.Number.Integer

namespace TypedConfig
namespace Number

/-- The value `digits · 10 ^ (point - number of digits)`: the decimal point stands
after `point` digits. -/
structure Shortest where
  digits : List Char
  point : Int
deriving DecidableEq

/-- A positive value with the open or closed interval around it in which every
number rounds to it, all as multiples of `1 / den`. -/
structure RoundingInterval where
  low : Nat
  value : Nat
  high : Nat
  den : Nat
  closed : Bool

namespace RoundingInterval

/-- Whether `num / den'` rounds to the value. -/
def holds (i : RoundingInterval) (num den' : Nat) : Bool :=
  if i.closed then i.low * den' ≤ num * i.den && num * i.den ≤ i.high * den'
  else i.low * den' < num * i.den && num * i.den < i.high * den'

/-- The interval of a finite double other than nought. Its lower half is narrower when
the value is a power of two, as the doubles below lie closer together. -/
def ofDouble (x : Double) : RoundingInterval :=
  let m := x.significand
  let up := Nat.pow 2 x.scale.toNat
  let below := if x.fraction = 0 ∧ 1 < x.exponent then 1 else 2
  ⟨(4 * m - below) * up, 4 * m * up, (4 * m + 2) * up, 4 * Nat.pow 2 (-x.scale).toNat, m % 2 = 0⟩

/-- The nearer of the two neighbours `k` and `k + 1` of the value on the grid with step
`num / den`, among those that round to the value. -/
def nearest (i : RoundingInterval) (num den : Nat) : Option Nat :=
  let k := i.value * den / (i.den * num)
  let lower := i.holds (k * num) den
  let upper := i.holds ((k + 1) * num) den
  if lower && upper then
    -- compares `value - k * step` with `(k + 1) * step - value`
    if 2 * (i.value * den) < (2 * k + 1) * (num * i.den) then some k else some (k + 1)
  else if lower then some k
  else if upper then some (k + 1)
  else none

/-- The least `p` with `value < 10 ^ p`, sought from `p` downwards. -/
def pointBelow (i : RoundingInterval) : Nat → Int → Int
  | 0, p => p
  | fuel + 1, p =>
    if i.value * Nat.pow 10 (-(p - 1)).toNat < i.den * Nat.pow 10 (p - 1).toNat then
      pointBelow i fuel (p - 1)
    else p

/-- Tries grids of more and more digits until a grid point rounds to the value. -/
def search (i : RoundingInterval) (point : Int) : Nat → Nat → Shortest
  | 0, _ => ⟨['0'], 1⟩
  | fuel + 1, count =>
    let step : Int := point - count
    match i.nearest (Nat.pow 10 step.toNat) (Nat.pow 10 (-step).toNat) with
    | some k =>
      let ds := naturalText k
      ⟨(ds.reverse.dropWhile (· == '0')).reverse, point + ds.length - count⟩
    | none => search i point fuel (count + 1)

end RoundingInterval

end Number

/-- The shortest digits that read back as a finite double; nought is the digit `0`. -/
def Double.shortest (x : Double) : Number.Shortest :=
  if x.magnitude = 0 then ⟨['0'], 1⟩
  else
    let i := Number.RoundingInterval.ofDouble x
    i.search (i.pointBelow 640 310) 17 1

namespace Number

/-- The digits written out around the decimal point, with no power of ten. -/
def Shortest.positional (s : Shortest) : List Char :=
  if s.point ≤ 0 then ['0', '.'] ++ List.replicate (-s.point).toNat '0' ++ s.digits
  else if s.digits.length ≤ s.point.toNat then
    s.digits ++ List.replicate (s.point.toNat - s.digits.length) '0'
  else s.digits.take s.point.toNat ++ ['.'] ++ s.digits.drop s.point.toNat

/-- The digits with one in front of the point and a power of ten behind. -/
def Shortest.scientific (s : Shortest) : List Char :=
  (match s.digits with
    | d :: e :: ds => d :: '.' :: e :: ds
    | ds => ds) ++ ['e'] ++ integerText (s.point - 1)

/-- The text of a double whose digits `body` writes out. -/
def doubleTextWith (body : Shortest → List Char) (x : Double) : String :=
  if x.isNaN then "NaN"
  else
    let unsigned := if x.isFinite then body x.shortest else ['i', 'n', 'f']
    String.ofList (if x.negative then '-' :: unsigned else unsigned)

end Number

/-- The text of a double for readers: written out in full, a whole number without a
point. -/
def doubleText (x : Double) : String := Number.doubleTextWith Number.Shortest.positional x

/-- The detailed text of a double: a whole number ends in `.0`, and from `10^16` up and
below `10^-4` a power of ten is used. -/
def doubleDetail (x : Double) : String :=
  Number.doubleTextWith
    (fun s =>
      if x.magnitude ≠ 0 ∧ (16 < s.point ∨ s.point ≤ -4) then s.scientific
      else if (s.digits.length : Int) ≤ s.point then s.positional ++ ['.', '0']
      else s.positional)
    x

end TypedConfig
