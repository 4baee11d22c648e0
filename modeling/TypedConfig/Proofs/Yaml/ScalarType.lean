/-
# What a plain scalar is typed as

A plain scalar is typed by what its text spells (`plainNode_typed`): a whole number,
a number with a fraction or a power of ten, one of six words for a truth value, one of
five for null, and else a string. The texts of numbers are made of few characters,
none of which is blank, and have a digit among them.

Key definitions: `truthWords`, `nullWords`, `Typed`.
Key theorems: `readFinite_eq_some_iff`, `plainNode_typed`.
-/
import TypedConfig.Proofs.Blank
import TypedConfig.Proofs.Number
import TypedConfig.Yaml.ScalarType

namespace TypedConfig
namespace Yaml

/-! ### The characters of numbers -/

theorem isNumberChar_digit {c : Char} (hc : Text.isDigit c = true) : isNumberChar c = true := by
  rw [isNumberChar, hc]
  rfl

theorem isBlank_of_isNumberChar {c : Char} (hc : isNumberChar c = true) :
    Text.isBlank c = false := by
  simp only [isNumberChar, Text.isDigit, Bool.or_eq_true, Bool.and_eq_true, decide_eq_true_eq,
    Char.le_def, UInt32.le_iff_toNat_le, beq_iff_eq] at hc
  obtain ((((h | rfl) | rfl) | rfl) | rfl) | rfl := hc
  · exact Text.isBlank_of_visible (Nat.le_trans (by decide) h.1) (Nat.le_trans h.2 (by decide))
  all_goals decide

theorem isNumberChar_of_spellsInteger {cs : List Char} (h : spellsInteger cs = true) :
    ∀ c ∈ cs, isNumberChar c = true := by
  obtain ⟨sign, hcs, hsign⟩ := Number.splitSign_spec cs
  intro c hc
  rw [hcs] at hc
  rcases List.mem_append.mp hc with hc | hc
  · rcases hsign with ⟨rfl, -⟩ | ⟨rfl | rfl, -⟩
    · rw [List.mem_singleton.mp hc]
      rfl
    · rw [List.mem_singleton.mp hc]
      rfl
    · exact absurd hc List.not_mem_nil
  · exact isNumberChar_digit (Number.isDigit_of_isDigits h c hc)

theorem exists_digit_of_spellsInteger {cs : List Char} (h : spellsInteger cs = true) :
    ∃ c ∈ cs, Text.isDigit c = true := by
  obtain ⟨sign, hcs, -⟩ := Number.splitSign_spec cs
  cases hd : (Number.splitSign cs).2 with
  | nil =>
    rw [spellsInteger, hd] at h
    cases h
  | cons c rest =>
    have hc : c ∈ (Number.splitSign cs).2 := hd ▸ List.mem_cons_self
    exact ⟨c, hcs ▸ List.mem_append_right sign hc, Number.isDigit_of_isDigits h c hc⟩

/-- The text of a number is not trimmed. -/
theorem trim_of_spellsInteger {cs : List Char} (h : spellsInteger cs = true) :
    Text.trim cs = cs :=
  Text.trim_eq_self fun c hc => isBlank_of_isNumberChar (isNumberChar_of_spellsInteger h c hc)

theorem isNumberChar_of_spellsDouble {cs : List Char} (h : spellsDouble cs = true) :
    ∀ c ∈ cs, isNumberChar c = true :=
  List.all_eq_true.mp (Bool.and_eq_true_iff.mp h).2

theorem trim_of_spellsDouble {cs : List Char} (h : spellsDouble cs = true) :
    Text.trim cs = cs :=
  Text.trim_eq_self fun c hc => isBlank_of_isNumberChar (isNumberChar_of_spellsDouble h c hc)

/-! ### The texts of the types -/

/-- The texts that spell a truth value. -/
def truthWords : Bool → List String
  | true => ["true", "True", "TRUE"]
  | false => ["false", "False", "FALSE"]

/-- The texts that spell null. -/
def nullWords : List String := ["null", "Null", "NULL", "~", ""]

theorem readTruth_eq_some_iff {text : String} {b : Bool} :
    readTruth text = some b ↔ text ∈ truthWords b := by
  constructor
  · intro h
    unfold readTruth at h
    split at h
    · rename_i hw
      cases h
      simpa [truthWords] using hw
    · split at h
      · rename_i hw
        cases h
        simpa [truthWords] using hw
      · cases h
  · intro h
    cases b <;> simp only [truthWords, List.mem_cons, List.not_mem_nil, or_false] at h <;>
      rcases h with rfl | rfl | rfl <;> rfl

theorem spellsNull_eq_true_iff {text : String} : spellsNull text = true ↔ text ∈ nullWords := by
  simp [spellsNull, nullWords, or_assoc]

/-- A whole number of 64 bits is spelled as one. -/
theorem spellsInteger_of_readInt64 {cs : List Char} {k : Int64}
    (h : Number.readInt64 cs = some k) : spellsInteger cs = true :=
  (Number.readInteger_eq_some_iff.mp (Number.readInt64_eq_some_iff.mp h)).1

theorem readInt64_of_not_spellsInteger {cs : List Char} (h : spellsInteger cs = false) :
    Number.readInt64 cs = none := by
  cases hk : Number.readInt64 cs with
  | none => rfl
  | some k =>
    rw [spellsInteger_of_readInt64 hk] at h
    cases h

theorem readFinite_eq_some_iff {cs : List Char} {x : Double} :
    readFinite cs = some x ↔
      Number.readDouble cs = some x ∧ x.isFinite = true ∧ spellsDouble cs = true := by
  unfold readFinite
  cases Number.readDouble cs with
  | none => simp
  | some y =>
    simp only [Bool.and_eq_true, Option.ite_none_right_eq_some, Option.some.injEq]
    constructor
    · rintro ⟨h, rfl⟩
      exact ⟨rfl, h⟩
    · rintro ⟨rfl, h⟩
      exact ⟨h, rfl⟩

/-! ### The type of a plain scalar -/

/-- What a plain scalar is typed as, with what its text spells. -/
inductive Typed (text : String) (place : Place) : Node → Prop
  | long {k : Int64} (h : Number.readInt64 text.toList = some k) :
      Typed text place (.long k place)
  /-- A whole number that does not fit 64 bits. -/
  | large (hw : Number.readInt64 text.toList = none) (h : spellsInteger text.toList = true) :
      Typed text place (.string text place)
  | double {x : Double} (hw : spellsInteger text.toList = false)
      (h : readFinite text.toList = some x) : Typed text place (.double x place)
  | boolean {b : Bool} (h : text ∈ truthWords b) : Typed text place (.boolean b place)
  | null (h : text ∈ nullWords) : Typed text place (.null place)
  | string (hw : spellsInteger text.toList = false) (hd : readFinite text.toList = none)
      (ht : ∀ b, text ∉ truthWords b) (hn : text ∉ nullWords) :
      Typed text place (.string text place)

theorem plainNode_typed (text : String) (place : Place) :
    Typed text place (plainNode text place) := by
  unfold plainNode
  split
  · rename_i h
    exact .long h
  · rename_i hnone
    split
    · rename_i h
      exact .large hnone h
    · rename_i hspell
      have hw : spellsInteger text.toList = false := Bool.eq_false_iff.mpr hspell
      split
      · rename_i h
        exact .double hw h
      · rename_i h
        exact .boolean (readTruth_eq_some_iff.mp h)
      · rename_i hd ht
        split
        · rename_i h
          exact .null (spellsNull_eq_true_iff.mp h)
        · rename_i hn
          refine .string hw hd (fun b hb => ?_) fun h => hn (spellsNull_eq_true_iff.mpr h)
          rw [readTruth_eq_some_iff.mpr hb] at ht
          cases ht

end Yaml
end TypedConfig
