/-
# Whole numbers as numerals and as doubles

A text that is read as a whole number is a sign and digits. It is a decimal
numeral as well, without a point and a power of ten
(`Number.readDecimal_of_isDigits`), and like every whole number below `2 ^ 1023`
it is rounded to a finite double (`Double.nearestMagnitude_lt_infinite`): the
steps that a double has between two powers of two are at most `2 ^ 53`, and
rounding does not go beyond the upper end.

Key theorems: `Number.splitSign_spec`, `Number.readInt64_eq_some_iff`,
`Number.readDecimal_of_isDigits`, `Double.nearestMagnitude_lt_infinite`,
`Number.exists_readDouble_of_readInt64`.
-/
import Mathlib.Algebra.Group.Nat.Defs
import TypedConfig.Number.Decimal

namespace TypedConfig

namespace Double

/-! ### Rounding a whole number -/

/-- Rounding does not go beyond a natural number that is beyond the quotient. -/
theorem divideToEven_le {num den m : Nat} (hden : 0 < den) (h : num ≤ m * den) :
    divideToEven num den ≤ m := by
  have hq : num / den ≤ m := Nat.div_le_of_le_mul (Nat.mul_comm m den ▸ h)
  have hdiv : den * (num / den) + num % den = num := Nat.div_add_mod num den
  unfold divideToEven
  dsimp only
  split
  · rename_i hround
    -- the quotient itself is not the bound, as there is a remainder
    have hne : num / den ≠ m := by
      rintro rfl
      rw [Nat.mul_comm] at h
      omega
    omega
  · exact hq

theorem floorLog2_one {n : Nat} (h : n ≠ 0) : floorLog2 n 1 = n.log2 := by
  have hguess : (n.log2 : Int) - (Nat.log2 1 : Nat) = n.log2 := by
    rw [show Nat.log2 1 = 0 from by decide]
    omega
  have hle : 1 * Nat.pow 2 (n.log2 : Int).toNat ≤ n * Nat.pow 2 (-(n.log2 : Int)).toNat := by
    have hzero : (-(n.log2 : Int)).toNat = 0 := by omega
    calc 1 * 2 ^ (n.log2 : Int).toNat = 2 ^ n.log2 := by rw [Nat.one_mul, Int.toNat_natCast]
      _ ≤ n := Nat.log2_self_le h
      _ = n * 2 ^ (-(n.log2 : Int)).toNat := by rw [hzero, Nat.pow_zero, Nat.mul_one]
  unfold floorLog2
  dsimp only
  rw [hguess, if_pos hle]

/-- From one power of two to the next a double has no more than `2 ^ 53` steps. -/
theorem divideToEven_le_steps {n : Nat} {step : Int} (h : (n.log2 : Int) = step + 52) :
    divideToEven (n * Nat.pow 2 (-step).toNat) (1 * Nat.pow 2 step.toNat) ≤ 2 ^ 53 := by
  apply divideToEven_le
  · rw [Nat.one_mul]
    exact Nat.two_pow_pos _
  · calc n * 2 ^ (-step).toNat
        ≤ 2 ^ (n.log2 + 1) * 2 ^ (-step).toNat :=
          Nat.mul_le_mul_right _ (Nat.le_of_lt Nat.lt_log2_self)
      _ = 2 ^ 53 * 2 ^ step.toNat := by
          rw [← Nat.pow_add, ← Nat.pow_add]
          congr 1
          omega
      _ = 2 ^ 53 * (1 * 2 ^ step.toNat) := by rw [Nat.one_mul]

/-- A whole number that is not too large is rounded to a finite magnitude. -/
theorem nearestMagnitude_lt_infinite {n : Nat} (h : n.log2 < 1023) :
    nearestMagnitude n 1 < infinite := by
  have hpow : Nat.pow 2 52 = 4503599627370496 := rfl
  by_cases hn : n = 0
  · rw [nearestMagnitude, if_pos hn]
    decide
  · have hstep : max ((n.log2 : Int) - 52) (-1074) = n.log2 - 52 := by omega
    have hsteps := divideToEven_le_steps (show (n.log2 : Int) = n.log2 - 52 + 52 by omega)
    rw [nearestMagnitude, if_neg hn, floorLog2_one hn]
    dsimp only
    rw [hstep, infinite, hpow]
    omega

theorem magnitude_ofMagnitude (negative : Bool) {m : Nat} (h : m < 2 ^ 63) :
    (ofMagnitude negative m).magnitude = m := by
  have hpow : Nat.pow 2 63 = 9223372036854775808 := rfl
  rw [magnitude, ofMagnitude, UInt64.toNat_ofNat', hpow]
  cases negative
  · simp only [Bool.false_eq_true, if_false]
    omega
  · simp only [if_true]
    omega

theorem isFinite_ofMagnitude (negative : Bool) {m : Nat} (h : m < infinite) :
    (ofMagnitude negative m).isFinite = true := by
  have hbound : infinite < 2 ^ 63 := by decide
  rw [isFinite, magnitude_ofMagnitude negative (Nat.lt_trans h hbound)]
  exact decide_eq_true h

end Double

namespace Number

/-! ### A sign and digits -/

theorem isDigit_of_isDigits {cs : List Char} (h : isDigits cs = true) :
    ∀ c ∈ cs, Text.isDigit c = true :=
  List.all_eq_true.mp (Bool.and_eq_true_iff.mp h).2

/-- The sign that is split off stands in front of the rest. -/
theorem splitSign_spec (cs : List Char) :
    ∃ sign, cs = sign ++ (splitSign cs).2 ∧
      ((sign = ['-'] ∧ (splitSign cs).1 = true) ∨
        ((sign = ['+'] ∨ sign = []) ∧ (splitSign cs).1 = false)) := by
  unfold splitSign
  split
  · exact ⟨['-'], rfl, Or.inl ⟨rfl, rfl⟩⟩
  · exact ⟨['+'], rfl, Or.inr ⟨Or.inl rfl, rfl⟩⟩
  · exact ⟨[], rfl, Or.inr ⟨Or.inr rfl, rfl⟩⟩

/-- What comes after digits is split off from them. -/
theorem span_digits {ds rest : List Char} (hds : ∀ c ∈ ds, Text.isDigit c = true)
    (hrest : rest = [] ∨ ∃ c cs, rest = c :: cs ∧ Text.isDigit c = false) :
    (ds ++ rest).takeWhile Text.isDigit = ds ∧ (ds ++ rest).dropWhile Text.isDigit = rest := by
  rw [List.takeWhile_append_of_pos hds, List.dropWhile_append_of_pos hds]
  obtain rfl | ⟨c, cs, rfl, hc⟩ := hrest
  · exact ⟨List.append_nil ds, rfl⟩
  · have hc' : ¬Text.isDigit c = true := Bool.eq_false_iff.mp hc
    rw [List.takeWhile_cons_of_neg hc', List.dropWhile_cons_of_neg hc']
    exact ⟨List.append_nil ds, rfl⟩

/-! ### Reading a whole number -/

theorem readInteger_eq_some_iff {cs : List Char} {k : Int} :
    readInteger cs = some k ↔
      isDigits (splitSign cs).2 = true ∧
        k = withSign (splitSign cs).1 (digitsValue (splitSign cs).2) := by
  rw [readInteger]
  split
  · rename_i h
    simp [h, eq_comm]
  · rename_i h
    simp [h]

/-- Of the whole numbers those that fit 64 bits are read exactly. -/
theorem readInt64_eq_some_iff {cs : List Char} {k : Int64} :
    readInt64 cs = some k ↔ readInteger cs = some k.toInt := by
  constructor
  · intro h
    unfold readInt64 at h
    split at h
    · rename_i n hn
      split at h
      · rename_i hfits
        obtain ⟨hmin, hmax⟩ := Bool.and_eq_true_iff.mp hfits
        have hmin' : -2 ^ 63 ≤ n := of_decide_eq_true hmin
        have hmax' : n ≤ 2 ^ 63 - 1 := of_decide_eq_true hmax
        cases h
        rw [hn, Int64.toInt_ofInt_of_le hmin' (Int.lt_of_le_sub_one hmax')]
      · cases h
    · cases h
  · intro h
    have hfits : fitsInt64 k.toInt = true := by
      rw [fitsInt64, decide_eq_true k.minValue_le_toInt, decide_eq_true k.toInt_le]
      rfl
    rw [readInt64, h]
    dsimp only
    rw [if_pos hfits, Int64.ofInt_toInt]

/-- The digits of a number of 64 bits have a value of 64 bits. -/
theorem digitsValue_lt_of_readInt64 {cs : List Char} {k : Int64} (h : readInt64 cs = some k) :
    digitsValue (splitSign cs).2 < 2 ^ 64 := by
  have hk := (readInteger_eq_some_iff.mp (readInt64_eq_some_iff.mp h)).2
  have hlo := k.le_toInt
  have hhi := k.toInt_lt
  unfold withSign at hk
  split at hk <;> omega

/-- A sign and digits are a decimal numeral as well. -/
theorem readDecimal_of_isDigits {cs : List Char} (h : isDigits (splitSign cs).2 = true) :
    readDecimal cs = some ⟨(splitSign cs).1, digitsValue (splitSign cs).2, 0⟩ := by
  have hspan := span_digits (isDigit_of_isDigits h) (Or.inl rfl)
  rw [List.append_nil] at hspan
  have hsome : (splitSign cs).2.isEmpty = false := by
    rw [isDigits, Bool.and_eq_true, Bool.not_eq_true'] at h
    exact h.1
  rw [readDecimal, readUnsigned, hspan.1, hspan.2]
  simp [hsome, readPower]

/-- Digits of few enough places make a finite double. -/
theorem isFinite_toDouble (negative : Bool) {n : Nat} (h : n < 2 ^ 64) :
    (Decimal.toDouble ⟨negative, n, 0⟩).isFinite = true := by
  have hplaces : (naturalText n).length ≤ 20 :=
    (Nat.length_toDigits_le_iff (by decide) (by decide)).mpr (Nat.lt_trans h (by decide))
  by_cases hn : n = 0
  · rw [Decimal.toDouble, if_pos hn]
    exact Double.isFinite_ofMagnitude negative (by decide)
  have hlog : n.log2 < 1023 := Nat.lt_trans ((Nat.log2_lt hn).mpr h) (by decide)
  have hfew : ¬ 310 < ((naturalText n).length : Int) + 0 := by omega
  have hmany : ¬ ((naturalText n).length : Int) + 0 < -330 := by omega
  rw [Decimal.toDouble, if_neg hn]
  dsimp only
  rw [if_neg hfew, if_neg hmany, Double.ofRatio]
  apply Double.isFinite_ofMagnitude
  have hratio : n * Nat.pow 10 (0 : Int).toNat = n := Nat.mul_one n
  rw [hratio]
  exact Double.nearestMagnitude_lt_infinite hlog

/-- A whole number of 64 bits can be read as a double, and that is finite. -/
theorem exists_readDouble_of_readInt64 {cs : List Char} {k : Int64} (h : readInt64 cs = some k) :
    ∃ x, readDouble cs = some x ∧ x.isFinite = true := by
  have hdigits := (readInteger_eq_some_iff.mp (readInt64_eq_some_iff.mp h)).1
  refine ⟨_, ?_, isFinite_toDouble (splitSign cs).1 (digitsValue_lt_of_readInt64 h)⟩
  rw [readDouble, readDecimal_of_isDigits hdigits]

end Number
end TypedConfig
