/-
# The type of a plain scalar by its grammar

What a plain scalar is typed as is decided by how its text is written
(`plainNode_typing`). The tests that are made one after another, a whole number, a
finite numeral, a truth value, null, agree with the grammar of numbers: whatever is
written as a numeral passes the test of its characters (`spellsDouble_of_writesDecimal`),
and the words for infinity and for no number, which are read as doubles too, are not
finite. So the order of the tests matters in one place only, where a whole number is a
numeral as well.

Key definitions: `FitsWord`, `WritesFinite`.
Key theorems: `plainNode_eq_iff`, `readFinite_iff`, `plainNode_typing`.
-/
import Mathlib.Algebra.Group.Int.Defs
import TypedConfig.Proofs.Numeral
import TypedConfig.Proofs.Yaml.ScalarType

namespace TypedConfig
namespace Yaml

open Number (Digits Exponent Sign Significand WritesDecimal WritesInteger)

variable {cs : List Char} {text : String} {place : Place} {node : Node}

/-! ### The tests of characters -/

theorem spellsInteger_iff : spellsInteger cs = true ↔ ∃ k, WritesInteger cs k := by
  constructor
  · intro h
    exact ⟨_, Number.readInteger_iff.mp (Number.readInteger_eq_some_iff.mpr ⟨h, rfl⟩)⟩
  · rintro ⟨k, h⟩
    exact (Number.readInteger_eq_some_iff.mp (Number.readInteger_iff.mpr h)).1

theorem spellsInteger_eq_false_iff :
    spellsInteger cs = false ↔ ∀ k, ¬ WritesInteger cs k := by
  rw [← Bool.not_eq_true, spellsInteger_iff, not_exists]

theorem isNumberChar_of_sign {sign : List Char} {negative : Bool} (h : Sign sign negative) :
    ∀ c ∈ sign, isNumberChar c = true := by
  cases h with
  | none => nofun
  | plus => exact List.forall_mem_singleton.mpr rfl
  | minus => exact List.forall_mem_singleton.mpr rfl

theorem isNumberChar_of_digits {ds : List Char} (h : ∀ c ∈ ds, Text.isDigit c = true) :
    ∀ c ∈ ds, isNumberChar c = true :=
  fun c hc => isNumberChar_digit (h c hc)

theorem isNumberChar_of_exponent {exponent : Int} (h : Exponent cs exponent) :
    ∀ c ∈ cs, isNumberChar c = true := by
  cases h with
  | none => nofun
  | some hletter h =>
    rw [List.forall_mem_cons]
    refine ⟨?_, isNumberChar_of_spellsInteger (spellsInteger_iff.mpr ⟨_, h⟩)⟩
    rcases hletter with rfl | rfl <;> decide

theorem isNumberChar_of_significand {whole places : List Char} (h : Significand cs whole places) :
    ∀ c ∈ cs, isNumberChar c = true := by
  cases h with
  | whole hds => exact isNumberChar_of_digits hds.2
  | point hds hp =>
    rw [List.forall_mem_append, List.forall_mem_cons]
    exact ⟨isNumberChar_of_digits hds.2, by decide, isNumberChar_of_digits hp⟩
  | fraction hp =>
    rw [List.forall_mem_cons]
    exact ⟨by decide, isNumberChar_of_digits hp.2⟩

theorem exists_digit_of_significand {whole places : List Char} (h : Significand cs whole places) :
    ∃ c ∈ cs, Text.isDigit c = true := by
  have hdigits : ∀ {ds : List Char}, Digits ds → ∃ c ∈ ds, Text.isDigit c = true := by
    intro ds hds
    obtain ⟨c, hc⟩ := List.exists_mem_of_ne_nil ds hds.1
    exact ⟨c, hc, hds.2 c hc⟩
  cases h with
  | whole hds => exact hdigits hds
  | point hds hp =>
    obtain ⟨c, hc, hdigit⟩ := hdigits hds
    exact ⟨c, List.mem_append_left _ hc, hdigit⟩
  | fraction hp =>
    obtain ⟨c, hc, hdigit⟩ := hdigits hp
    exact ⟨c, List.mem_cons_of_mem _ hc, hdigit⟩

/-- A numeral has a digit and no other character than those of numbers. -/
theorem spellsDouble_of_writesDecimal {d : Number.Decimal} (h : WritesDecimal cs d) :
    spellsDouble cs = true := by
  obtain ⟨sign, negative, rest, hsign, rfl, body, whole, places, power, exponent, hbody, hpower,
    rfl, -⟩ := h
  obtain ⟨c, hc, hdigit⟩ := exists_digit_of_significand hbody
  rw [spellsDouble, Bool.and_eq_true, List.any_eq_true, List.all_eq_true]
  refine ⟨⟨c, by simp [hc], hdigit⟩, ?_⟩
  rw [List.forall_mem_append, List.forall_mem_append]
  exact ⟨isNumberChar_of_sign hsign, isNumberChar_of_significand hbody,
    isNumberChar_of_exponent hpower⟩

/-- The finite doubles that a text is read as are the finite values of the numerals it is
written as. -/
theorem readFinite_iff {x : Double} :
    readFinite cs = some x ↔ x.isFinite = true ∧ ∃ d, WritesDecimal cs d ∧ d.toDouble = x := by
  rw [readFinite_eq_some_iff]
  constructor
  · rintro ⟨hread, hx, -⟩
    exact ⟨hx, (Number.readDouble_finite_iff hx).mp hread⟩
  · rintro ⟨hx, d, hd, hvalue⟩
    exact ⟨(Number.readDouble_finite_iff hx).mpr ⟨d, hd, hvalue⟩, hx,
      spellsDouble_of_writesDecimal hd⟩

/-! ### The tests one after another -/

/-- The numbers that 64 bits hold. -/
def FitsWord (z : Int) : Prop := -2 ^ 63 ≤ z ∧ z ≤ 2 ^ 63 - 1

theorem fitsInt64_iff {z : Int} : Number.fitsInt64 z = true ↔ FitsWord z := by
  rw [Number.fitsInt64, Bool.and_eq_true, decide_eq_true_eq, decide_eq_true_eq]
  exact Iff.rfl

theorem exists_toInt_iff {z : Int} : (∃ k : Int64, k.toInt = z) ↔ FitsWord z := by
  constructor
  · rintro ⟨k, rfl⟩
    exact ⟨k.le_toInt, Int.le_sub_one_of_lt k.toInt_lt⟩
  · rintro ⟨hlow, hhigh⟩
    exact ⟨Int64.ofInt z, Int64.toInt_ofInt_of_le hlow (Int.lt_of_le_sub_one hhigh)⟩

/-- The text is no whole number, and as a numeral it has the finite value `x`. -/
def WritesFinite (cs : List Char) (x : Double) : Prop :=
  (∀ k, ¬ WritesInteger cs k) ∧ x.isFinite = true ∧ ∃ d, WritesDecimal cs d ∧ d.toDouble = x

/-- What a text may be typed as it is typed as: no two of the cases overlap. -/
theorem Typed.plainNode_eq (h : Typed text place node) : plainNode text place = node := by
  cases h with
  | long h => simp [plainNode, h]
  | large hw h => simp [plainNode, hw, h]
  | double hw h => simp [plainNode, readInt64_of_not_spellsInteger hw, hw, h]
  | @boolean b h =>
    cases b <;> simp only [truthWords, List.mem_cons, List.not_mem_nil, or_false] at h <;>
      rcases h with rfl | rfl | rfl <;> rfl
  | null h =>
    simp only [nullWords, List.mem_cons, List.not_mem_nil, or_false] at h
    rcases h with rfl | rfl | rfl | rfl | rfl <;> rfl
  | string hw hd ht hn =>
    have htruth : readTruth text = none :=
      Option.eq_none_iff_forall_ne_some.mpr fun b hb => ht b (readTruth_eq_some_iff.mp hb)
    have hnull : spellsNull text = false :=
      Bool.eq_false_iff.mpr fun h => hn (spellsNull_eq_true_iff.mp h)
    simp [plainNode, readInt64_of_not_spellsInteger hw, hw, hd, htruth, hnull]

theorem plainNode_eq_iff : plainNode text place = node ↔ Typed text place node :=
  ⟨fun h => h ▸ plainNode_typed text place, Typed.plainNode_eq⟩

theorem plainNode_long_iff {k : Int64} :
    plainNode text place = .long k place ↔ WritesInteger text.toList k.toInt := by
  rw [plainNode_eq_iff, ← Number.readInteger_iff, ← Number.readInt64_eq_some_iff]
  constructor
  · rintro (h | _)
    exact h
  · exact .long

theorem plainNode_double_iff {x : Double} :
    plainNode text place = .double x place ↔ WritesFinite text.toList x := by
  rw [plainNode_eq_iff, WritesFinite, ← spellsInteger_eq_false_iff, ← readFinite_iff]
  constructor
  · rintro (_ | _ | ⟨hw, h⟩)
    exact ⟨hw, h⟩
  · rintro ⟨hw, h⟩
    exact .double hw h

theorem plainNode_boolean_iff {b : Bool} :
    plainNode text place = .boolean b place ↔ text ∈ truthWords b := by
  rw [plainNode_eq_iff]
  constructor
  · rintro (_ | _ | _ | h)
    exact h
  · exact .boolean

theorem plainNode_null_iff : plainNode text place = .null place ↔ text ∈ nullWords := by
  rw [plainNode_eq_iff]
  constructor
  · rintro (_ | _ | _ | _ | h)
    exact h
  · exact .null

/-- A whole number is too large for 64 bits exactly if it is spelled as one and not read. -/
theorem exists_large_iff :
    (Number.readInt64 cs = none ∧ spellsInteger cs = true) ↔
      ∃ z, WritesInteger cs z ∧ ¬ FitsWord z := by
  rw [spellsInteger_iff]
  constructor
  · rintro ⟨hnone, z, hz⟩
    refine ⟨z, hz, fun hfits => ?_⟩
    obtain ⟨k, rfl⟩ := exists_toInt_iff.mpr hfits
    rw [Number.readInt64_eq_some_iff.mpr (Number.readInteger_iff.mpr hz)] at hnone
    cases hnone
  · rintro ⟨z, hz, hlarge⟩
    refine ⟨Option.eq_none_iff_forall_ne_some.mpr fun k hk => hlarge ?_, z, hz⟩
    have hk' := Number.readInt64_eq_some_iff.mp hk
    rw [Number.readInteger_iff.mpr hz] at hk'
    exact exists_toInt_iff.mp ⟨k, (Option.some.inj hk').symm⟩

theorem plainNode_string_iff :
    plainNode text place = .string text place ↔
      (∃ z, WritesInteger text.toList z ∧ ¬ FitsWord z) ∨
        (∀ z, ¬ WritesInteger text.toList z) ∧ (∀ x, ¬ WritesFinite text.toList x) ∧
          (∀ b, text ∉ truthWords b) ∧ text ∉ nullWords := by
  rw [plainNode_eq_iff, ← exists_large_iff, ← spellsInteger_eq_false_iff]
  constructor
  · rintro (_ | ⟨hw, h⟩ | _ | _ | _ | ⟨hw, hd, ht, hn⟩)
    · exact Or.inl ⟨hw, h⟩
    · refine Or.inr ⟨hw, fun x hx => ?_, ht, hn⟩
      rw [readFinite_iff.mpr hx.2] at hd
      cases hd
  · rintro (⟨hw, h⟩ | ⟨hw, hd, ht, hn⟩)
    · exact .large hw h
    · refine .string hw (Option.eq_none_iff_forall_ne_some.mpr fun x hx => hd x ?_) ht hn
      exact ⟨spellsInteger_eq_false_iff.mp hw, readFinite_iff.mp hx⟩

/-- **A plain scalar is typed by the grammar of its text.** It is a whole number exactly
if its text is a sign and digits with a value of 64 bits, and then of that value. If the
value is larger, it is a string. Else it is a double exactly if its text is a numeral
whose double is finite, and then that double. It is a truth value or null exactly if its
text is one of the words for it, and in every other case the string of its text. The
decimal text of a number of 64 bits is that number. -/
theorem plainNode_typing (text : String) (place : Place) :
    (∀ z : Int, (∃ k : Int64, k.toInt = z ∧ plainNode text place = .long k place) ↔
      WritesInteger text.toList z ∧ FitsWord z) ∧
    (∀ x, plainNode text place = .double x place ↔ WritesFinite text.toList x) ∧
    (∀ b, plainNode text place = .boolean b place ↔ text ∈ truthWords b) ∧
    (plainNode text place = .null place ↔ text ∈ nullWords) ∧
    (plainNode text place = .string text place ↔
      (∃ z, WritesInteger text.toList z ∧ ¬ FitsWord z) ∨
        (∀ z, ¬ WritesInteger text.toList z) ∧ (∀ x, ¬ WritesFinite text.toList x) ∧
          (∀ b, text ∉ truthWords b) ∧ text ∉ nullWords) ∧
    ((∃ k, plainNode text place = .long k place) ∨ (∃ x, plainNode text place = .double x place) ∨
      (∃ b, plainNode text place = .boolean b place) ∨ plainNode text place = .null place ∨
      plainNode text place = .string text place) ∧
    ∀ k : Int64, plainNode (int64Text k) place = .long k place := by
  refine ⟨fun z => ?_, fun _ => plainNode_double_iff, fun _ => plainNode_boolean_iff,
    plainNode_null_iff, plainNode_string_iff, ?_, fun k => ?_⟩
  · rw [← exists_toInt_iff]
    constructor
    · rintro ⟨k, rfl, h⟩
      exact ⟨plainNode_long_iff.mp h, k, rfl⟩
    · rintro ⟨h, k, rfl⟩
      exact ⟨k, rfl, plainNode_long_iff.mpr h⟩
  · have htyped := plainNode_typed text place
    generalize plainNode text place = node at htyped ⊢
    cases htyped with
    | long => exact Or.inl ⟨_, rfl⟩
    | double => exact Or.inr (Or.inl ⟨_, rfl⟩)
    | boolean => exact Or.inr (Or.inr (Or.inl ⟨_, rfl⟩))
    | null => exact Or.inr (Or.inr (Or.inr (Or.inl rfl)))
    | large => exact Or.inr (Or.inr (Or.inr (Or.inr rfl)))
    | string => exact Or.inr (Or.inr (Or.inr (Or.inr rfl)))
  · have hread : Number.readInt64 (int64Text k).toList = some k := by
      rw [int64Text, String.toList_ofList, Number.readInt64_integerText]
    exact plainNode_eq_iff.mpr (.long hread)

/-- A word for infinity is no number, and a numeral beyond the doubles is none either. -/
example (place : Place) : plainNode "inf" place = .string "inf" place ∧
    plainNode "1e400" place = .string "1e400" place := ⟨rfl, rfl⟩

end Yaml
end TypedConfig
