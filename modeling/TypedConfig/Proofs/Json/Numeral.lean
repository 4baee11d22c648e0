/-
# Numbers as plain scalars

A number of JSON is written as the grammar of numbers has it
(`Numeral.writesDecimal_spelling`), so it is a plain scalar of YAML, and YAML reads it as
the same number: digits alone as a whole number if it fits 64 bits, and otherwise as the
text that it is; with a fraction or a power of ten, as the double nearest to it, unless
that is infinite (`Numeral.denotes_plainNode`).

Key theorems: `Numeral.writesInteger_spelling`, `Numeral.writesDecimal_spelling`,
`Numeral.isPlain`, `Numeral.denotes_plainNode`.
-/
import TypedConfig.Proofs.Yaml.Plain
import TypedConfig.Proofs.Yaml.Typing

namespace TypedConfig
namespace Json
namespace Numeral

open Number (Digits Exponent Sign Significand WritesDecimal WritesInteger isDigits_iff)
open Yaml (isNumberChar IsPlain isPlainMark isWordChar)

variable {numeral : Numeral}

/-! ### How a number is written -/

theorem sign_spelling (negative : Bool) : Sign (if negative then ['-'] else []) negative := by
  cases negative
  · exact .none
  · exact .minus

/-- In front of the power of ten are the digits, and those after the point. -/
theorem significand_spelling (numeral : Numeral) :
    Significand (numeral.whole ++ numeral.fraction) numeral.whole numeral.places := by
  have hwhole : Digits numeral.whole := isDigits_iff.mp numeral.isDigits
  have hplaces : ∀ c ∈ numeral.places, Text.isDigit c = true :=
    List.all_eq_true.mp numeral.places_digits
  rw [fraction]
  cases hp : numeral.places with
  | nil => simpa using Significand.whole hwhole
  | cons c cs => exact .point hwhole (hp ▸ hplaces)

theorem exponent_power (numeral : Numeral) :
    Exponent numeral.power ((numeral.power?.map (·.value)).getD 0) := by
  rw [power]
  cases numeral.power? with
  | none => exact .none
  | some power =>
    have hsign : Sign power.sign (power.sign == ['-']) := by
      rcases power.sign_eq with h | h | h <;> rw [h]
      · exact .none
      · exact .plus
      · exact .minus
    exact .some power.letter_eq
      ⟨power.sign, _, power.digits, hsign, isDigits_iff.mp power.isDigits, rfl, rfl⟩

/-- A number is a numeral of the value that it has. -/
theorem writesDecimal_spelling (numeral : Numeral) : WritesDecimal numeral.spelling
    ⟨numeral.negative, Number.digitsValue (numeral.whole ++ numeral.places),
      (numeral.power?.map (·.value)).getD 0 - numeral.places.length⟩ :=
  ⟨_, _, _, sign_spelling numeral.negative, rfl, _, _, _, _, _, numeral.significand_spelling,
    numeral.exponent_power, (List.append_assoc _ _ _).symm, rfl⟩

theorem isNumberChar_spelling (numeral : Numeral) :
    ∀ c ∈ numeral.spelling, isNumberChar c = true :=
  Yaml.isNumberChar_of_spellsDouble
    (Yaml.spellsDouble_of_writesDecimal numeral.writesDecimal_spelling)

theorem tail_eq_nil (h : numeral.isWhole = true) : numeral.fraction ++ numeral.power = [] := by
  rw [isWhole, Bool.and_eq_true] at h
  rw [fraction, if_pos h.1, power, Option.isNone_iff_eq_none.mp h.2]
  rfl

/-- A number that is not whole goes on after its first digits with something else. -/
theorem tail_facts (h : numeral.isWhole = false) :
    ∃ c cs, numeral.fraction ++ numeral.power = c :: cs ∧ Text.isDigit c = false := by
  rw [fraction, power]
  by_cases hp : numeral.places.isEmpty = true
  · rw [if_pos hp]
    cases hpower : numeral.power? with
    | none =>
      rw [isWhole, hp, hpower] at h
      cases h
    | some power =>
      refine ⟨power.letter, power.sign ++ power.digits, rfl, ?_⟩
      rcases power.letter_eq with h | h <;> rw [h] <;> rfl
  · rw [if_neg hp]
    exact ⟨'.', _, rfl, rfl⟩

theorem writesInteger_spelling (h : numeral.isWhole = true) :
    WritesInteger numeral.spelling numeral.value := by
  rw [spelling, tail_eq_nil h, List.append_nil]
  exact ⟨_, _, _, sign_spelling numeral.negative, isDigits_iff.mp numeral.isDigits, rfl, rfl⟩

/-- The first digit of a number. -/
theorem exists_digit (numeral : Numeral) :
    ∃ c cs, numeral.whole = c :: cs ∧ Text.isDigit c = true := by
  obtain ⟨hne, hdigits⟩ := isDigits_iff.mp numeral.isDigits
  obtain ⟨c, cs, hw⟩ := List.exists_cons_of_ne_nil hne
  exact ⟨c, cs, hw, hdigits c (hw ▸ List.mem_cons_self)⟩

/-- A number with a fraction or a power of ten is not written as a whole number. -/
theorem not_writesInteger_spelling (h : numeral.isWhole = false) :
    ∀ k, ¬ WritesInteger numeral.spelling k := by
  obtain ⟨d, ds, htail, hd⟩ := tail_facts h
  obtain ⟨c, cs, hw, hc⟩ := numeral.exists_digit
  have hsplit : Number.splitSign numeral.spelling = (numeral.negative, c :: (cs ++ d :: ds)) := by
    rw [spelling, hw, htail]
    exact Number.splitSign_of_sign (sign_spelling _) (Number.ne_sign_of_isDigit hc) _
  rw [← Yaml.spellsInteger_eq_false_iff, Yaml.spellsInteger, hsplit]
  simp [Number.isDigits, hd]

/-! ### Plain scalars -/

theorem isPlainMark_of_isNumberChar {c : Char} (hc : isNumberChar c = true) :
    isPlainMark c = true := by
  simp only [isNumberChar, Bool.or_eq_true, beq_iff_eq] at hc
  obtain ((((hc | rfl) | rfl) | rfl) | rfl) | rfl := hc
  · rw [isPlainMark, Yaml.Scan.isGap_digit hc, Yaml.Scan.isFlow_digit hc, bne_iff_ne.mpr]
    · rfl
    · rintro rfl
      exact absurd hc (by decide)
  all_goals rfl

theorem isWordChar_digit {c : Char} (hc : Text.isDigit c = true) : isWordChar c = true := by
  rw [isWordChar, hc]
  rfl

/-- Every number is a plain scalar of YAML. -/
theorem isPlain (numeral : Numeral) : IsPlain numeral.spelling := by
  obtain ⟨c, cs, hw, hc⟩ := numeral.exists_digit
  refine ⟨fun d hd => isPlainMark_of_isNumberChar (numeral.isNumberChar_spelling d hd), ?_, ?_⟩
  · rw [spelling, hw]
    cases numeral.negative
    · exact isWordChar_digit hc
    · rfl
  · rw [spelling, hw]
    cases numeral.negative
    · intro h
      have he : c = '-' := h
      subst he
      exact absurd hc (by decide)
    · exact fun _ => hc

/-! ### What a number is read as -/

open Yaml in
/-- A number says the same as a plain scalar of YAML as it does in JSON. -/
theorem denotes_plainNode (numeral : Numeral)
    (h : numeral.isWhole = true ∨ numeral.double.isFinite = true) (place : Place) :
    Syntax.Denotes (.number numeral) (plainNode (.ofList numeral.spelling) place) := by
  have htext : (String.ofList numeral.spelling).toList = numeral.spelling := String.toList_ofList
  cases hw : numeral.isWhole with
  | true =>
    have hwrites : WritesInteger (String.ofList numeral.spelling).toList numeral.value :=
      htext.symm ▸ writesInteger_spelling hw
    by_cases hfits : FitsWord numeral.value
    · obtain ⟨k, hk⟩ := exists_toInt_iff.mpr hfits
      rw [plainNode_long_iff.mpr (hk ▸ hwrites)]
      exact .long numeral k place hw hk
    · rw [plainNode_string_iff.mpr (Or.inl ⟨_, hwrites, hfits⟩)]
      exact .large numeral place hw (Bool.eq_false_iff.mpr fun he => hfits (fitsInt64_iff.mp he))
  | false =>
    have hfinite : numeral.double.isFinite = true :=
      h.resolve_left (Bool.eq_false_iff.mp hw)
    have hwrites : WritesFinite (String.ofList numeral.spelling).toList numeral.double := by
      rw [htext]
      exact ⟨not_writesInteger_spelling hw, hfinite, _, numeral.writesDecimal_spelling, rfl⟩
    rw [plainNode_double_iff.mpr hwrites]
    exact .double numeral place hw

end Numeral
end Json
end TypedConfig
