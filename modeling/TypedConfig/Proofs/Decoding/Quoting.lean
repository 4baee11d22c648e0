/-
# Quoting a scalar

A scalar without quotes is typed before it is decoded, and one in quotes is decoded from
its text. Both come to the same for numbers and truth values (`decodeAt_plainNode`):
what is typed as a number or a truth value is written so that the decoder reads it the
same, and what is typed as anything else the decoder does not read as a number or truth
value either.

There is one exception. A whole number that is decoded as a double is rounded from its
64 bits, but read as a numeral if it is quoted, so that a minus before nought counts
only there.

Key theorems: `decodeWhole_plainNode`, `decodeBoolean_plainNode`, `decodeDouble_plainNode`,
`Context.decodeAt_plainNode`.
-/
import TypedConfig.Proofs.Decoding.Builtin
import TypedConfig.Proofs.Decoding.Leaf
import TypedConfig.Proofs.Yaml.ScalarType

namespace TypedConfig

open Yaml

variable {shape text : String} {place : Place}

/-! ### Texts that are no number or no truth value -/

/-- The words for truth values and for null are no numbers. -/
theorem no_number_of_mem_words {s : String}
    (h : s ∈ truthWords true ++ truthWords false ++ nullWords) :
    Number.readInt64 (Text.trim s.toList) = none ∧
      Number.readDouble (Text.trim s.toList) = none := by
  have hwords : ∀ s ∈ truthWords true ++ truthWords false ++ nullWords,
      Number.readInt64 (Text.trim s.toList) = none ∧
        Number.readDouble (Text.trim s.toList) = none := by decide
  exact hwords s h

theorem no_number_of_mem_truthWords {b : Bool} (h : text ∈ truthWords b) :
    Number.readInt64 (Text.trim text.toList) = none ∧
      Number.readDouble (Text.trim text.toList) = none := by
  apply no_number_of_mem_words
  cases b <;> simp [h]

theorem no_number_of_mem_nullWords (h : text ∈ nullWords) :
    Number.readInt64 (Text.trim text.toList) = none ∧
      Number.readDouble (Text.trim text.toList) = none :=
  no_number_of_mem_words (List.mem_append_right _ h)

theorem asciiLower_digit {c : Char} (hc : Text.isDigit c = true) : Text.asciiLower c = c := by
  have hcapital : ¬ ('A' ≤ c ∧ c ≤ 'Z') := by
    intro h
    simp only [Text.isDigit, Bool.and_eq_true, decide_eq_true_eq, Char.le_def,
      UInt32.le_iff_toNat_le] at hc
    have hlo : 65 ≤ c.toNat := UInt32.le_iff_toNat_le.mp (Char.le_def.mp h.1)
    have hhi : c.toNat ≤ 57 := hc.2
    omega
  rw [Text.asciiLower, if_neg hcapital]

/-- A text with a digit is no truth value. -/
theorem no_truth_of_digit {cs : List Char} {c : Char} (hc : Text.isDigit c = true) (hm : c ∈ cs)
    (b : Bool) : (Text.trim cs).map Text.asciiLower ≠ truthName b := by
  intro h
  have hmem : c ∈ truthName b := by
    rw [← h, ← asciiLower_digit hc]
    exact List.mem_map_of_mem (Text.mem_trim (isBlank_of_isNumberChar (isNumberChar_digit hc)) hm)
  have hnone : ∀ d ∈ truthName b, Text.isDigit d = false := by
    cases b <;> simp [truthName, Text.isDigit]
  rw [hnone c hmem] at hc
  cases hc

/-! ### One kind of leaf -/

/-- As a whole number a plain scalar is decoded to the same as its text. -/
theorem decodeWhole_plainNode {k : Int64} :
    decodeWhole shape (plainNode text place) = .ok k ↔
      decodeWhole shape (.string text place) = .ok k := by
  have htyped := plainNode_typed text place
  generalize plainNode text place = node at htyped ⊢
  rw [decodeWhole_string_eq_ok_iff]
  cases htyped with
  | @long n h =>
    rw [trim_of_spellsInteger (spellsInteger_of_readInt64 h), h]
    simp [decodeWhole]
  | large hw h => exact decodeWhole_string_eq_ok_iff
  | @double x hw h =>
    obtain ⟨-, -, hdouble⟩ := readFinite_eq_some_iff.mp h
    rw [trim_of_spellsDouble hdouble, readInt64_of_not_spellsInteger hw]
    simp [decodeWhole, Outcome.fail]
  | boolean h =>
    rw [(no_number_of_mem_truthWords h).1]
    simp [decodeWhole, Outcome.fail]
  | null h =>
    rw [(no_number_of_mem_nullWords h).1]
    simp [decodeWhole, Outcome.fail]
  | string hw hd ht hn => exact decodeWhole_string_eq_ok_iff

/-- As a truth value a plain scalar is decoded to the same as its text. -/
theorem decodeBoolean_plainNode {b : Bool} :
    decodeBoolean shape (plainNode text place) = .ok b ↔
      decodeBoolean shape (.string text place) = .ok b := by
  have htyped := plainNode_typed text place
  generalize plainNode text place = node at htyped ⊢
  rw [decodeBoolean_string_eq_ok_iff]
  cases htyped with
  | @long n h =>
    obtain ⟨c, hm, hc⟩ := exists_digit_of_spellsInteger (spellsInteger_of_readInt64 h)
    simp [decodeBoolean, Outcome.fail, no_truth_of_digit hc hm]
  | large hw h => exact decodeBoolean_string_eq_ok_iff
  | @double x hw h =>
    obtain ⟨-, -, hdouble⟩ := readFinite_eq_some_iff.mp h
    obtain ⟨c, hm, hc⟩ := List.any_eq_true.mp (Bool.and_eq_true_iff.mp hdouble).1
    simp [decodeBoolean, Outcome.fail, no_truth_of_digit hc hm]
  | @boolean b' h =>
    have hwords : ∀ b b', ∀ s ∈ truthWords b',
        (Text.trim s.toList).map Text.asciiLower = truthName b ↔ b' = b := by decide
    rw [hwords b b' text h]
    simp [decodeBoolean]
  | null h =>
    have hwords : ∀ b, ∀ s ∈ nullWords,
        (Text.trim s.toList).map Text.asciiLower ≠ truthName b := by decide
    simp [decodeBoolean, Outcome.fail, hwords b text h]
  | string hw hd ht hn => exact decodeBoolean_string_eq_ok_iff

/-- As a double a plain scalar that is no whole number of 64 bits is decoded to the same as
its text. -/
theorem decodeDouble_plainNode (hw : Number.readInt64 text.toList = none) {x : Double} :
    decodeDouble shape (plainNode text place) = .ok x ↔
      decodeDouble shape (.string text place) = .ok x := by
  have htyped := plainNode_typed text place
  generalize plainNode text place = node at htyped ⊢
  rw [decodeDouble_string_eq_ok_iff]
  cases htyped with
  | @long n h =>
    rw [hw] at h
    cases h
  | large hw h => exact decodeDouble_string_eq_ok_iff
  | @double y hi h =>
    obtain ⟨hread, hfinite, hdouble⟩ := readFinite_eq_some_iff.mp h
    rw [trim_of_spellsDouble hdouble, hread]
    simp only [decodeDouble, Except.ok.injEq, Option.some.injEq]
    constructor
    · rintro rfl
      exact ⟨rfl, Or.inl hfinite⟩
    · exact fun h => h.1
  | boolean h =>
    rw [(no_number_of_mem_truthWords h).2]
    simp [decodeDouble, Outcome.fail]
  | null h =>
    rw [(no_number_of_mem_nullWords h).2]
    simp [decodeDouble, Outcome.fail]
  | string hi hd ht hn => exact decodeDouble_string_eq_ok_iff

/-- A whole number of 64 bits is decoded as a double from a plain scalar and from its text. -/
theorem exists_decodeDouble_of_readInt64 {k : Int64} (h : Number.readInt64 text.toList = some k) :
    decodeDouble shape (plainNode text place) = .ok (.ofInt64 k) ∧
      ∃ x, decodeDouble shape (.string text place) = .ok x := by
  constructor
  · rw [plainNode, h]
    rfl
  · obtain ⟨x, hread, hfinite⟩ := Number.exists_readDouble_of_readInt64 h
    refine ⟨x, decodeDouble_string_eq_ok_iff.mpr ⟨?_, Or.inl hfinite⟩⟩
    rw [trim_of_spellsInteger (spellsInteger_of_readInt64 h), hread]

/-! ### All of them -/

variable {α : Type} {kind : Leaf}

/-- Numbers and truth values: the leaves that a plain scalar may be typed as. -/
def typedLeaves : List Leaf := [.long, .int, .boolean, .double]

theorem decodeLeaf_plainNode (hkind : kind ∈ typedLeaves)
    (hw : kind = .double → Number.readInt64 text.toList = none) {value : Value α} :
    decodeLeaf kind shape (plainNode text place) = .ok value ↔
      decodeLeaf kind shape (.string text place) = .ok value := by
  simp only [typedLeaves, List.mem_cons, List.not_mem_nil, or_false] at hkind
  rcases hkind with rfl | rfl | rfl | rfl
  · simp only [decodeLeaf_long, Outcome.map_eq_ok_iff, decodeWhole_plainNode]
  · simp only [decodeLeaf_int_eq_ok_iff, decodeWhole_plainNode]
  · simp only [decodeLeaf_boolean, Outcome.map_eq_ok_iff, decodeBoolean_plainNode]
  · simp only [decodeLeaf_double, Outcome.map_eq_ok_iff, decodeDouble_plainNode (hw rfl)]

theorem exists_decodeLeaf_plainNode (hkind : kind ∈ typedLeaves) :
    (∃ value : Value α, decodeLeaf kind shape (plainNode text place) = .ok value) ↔
      ∃ value : Value α, decodeLeaf kind shape (.string text place) = .ok value := by
  by_cases hdouble : kind = .double
  · subst hdouble
    cases hk : Number.readInt64 text.toList with
    | none => simp only [decodeLeaf_plainNode hkind fun _ => hk]
    | some k =>
      obtain ⟨hplain, x, hquoted⟩ := exists_decodeDouble_of_readInt64 hk
      rw [decodeLeaf_double, decodeLeaf_double, hplain, hquoted]
      exact ⟨fun _ => ⟨_, rfl⟩, fun _ => ⟨_, rfl⟩⟩
  · have hw : kind = .double → Number.readInt64 text.toList = none := fun h => absurd h hdouble
    simp only [decodeLeaf_plainNode hkind hw]

namespace Context

variable {ctx : Context α}

/-- **Quoting a scalar does not change what it is decoded to.** As a whole number, a truth
value or a double a text can be decoded if it is a plain scalar exactly if it can in quotes.
The values are the same, unless a whole number that fits 64 bits is decoded as a double. -/
theorem decodeAt_plainNode (hreg : ctx.registry = Registry.defaults)
    (hkind : kind ∈ typedLeaves) (site : Site) (text : String) (place : Place) :
    ((∃ value, ctx.decodeAt (.leaf kind false) site (Yaml.plainNode text place) = .ok value) ↔
        ∃ value, ctx.decodeAt (.leaf kind false) site (.string text place) = .ok value) ∧
      ((kind = .double → ∀ k : Int64, Number.readInteger text.toList ≠ some k.toInt) →
        ∀ value, ctx.decodeAt (.leaf kind false) site (Yaml.plainNode text place) = .ok value ↔
          ctx.decodeAt (.leaf kind false) site (.string text place) = .ok value) := by
  have hs : (Shape.leaf (α := α) kind false).foreign = false := by
    simp only [typedLeaves, List.mem_cons, List.not_mem_nil, or_false] at hkind
    rcases hkind with rfl | rfl | rfl | rfl <;> rfl
  simp only [decodeAt_leaf_eq_ok_iff hreg hs]
  refine ⟨exists_decodeLeaf_plainNode hkind, fun hw value => decodeLeaf_plainNode hkind ?_⟩
  intro hdouble
  rw [Option.eq_none_iff_forall_ne_some]
  intro k hk
  exact hw hdouble k (Number.readInt64_eq_some_iff.mp hk)

/-- A numeral with a power of ten is the same double without and with quotes. -/
theorem decodeAt_numeral :
    (ofRegistry (α := Unit) .defaults).registry = .defaults ∧ Leaf.double ∈ typedLeaves ∧
      (∀ k : Int64, Number.readInteger "-1.5E3".toList ≠ some k.toInt) ∧
      (ofRegistry (α := Unit) .defaults).decodeAt (.leaf .double false) []
          (Yaml.plainNode "-1.5E3" ⟨.unknown, "<root>"⟩) = .ok (.double ⟨0xC097700000000000⟩) ∧
      (ofRegistry (α := Unit) .defaults).decodeAt (.leaf .double false) []
          (.string "-1.5E3" ⟨.unknown, "<root>"⟩) = .ok (.double ⟨0xC097700000000000⟩) := by
  have hreg : (ofRegistry (α := Unit) .defaults).registry = .defaults := rfl
  have hkind : Leaf.double ∈ typedLeaves := by decide
  have hw : ∀ k : Int64, Number.readInteger "-1.5E3".toList ≠ some k.toInt := by
    intro k hk
    have hnone : Number.readInteger "-1.5E3".toList = none := by decide
    rw [hnone] at hk
    cases hk
  have hquoted : (ofRegistry (α := Unit) .defaults).decodeAt (.leaf .double false) []
      (.string "-1.5E3" ⟨.unknown, "<root>"⟩) = .ok (.double ⟨0xC097700000000000⟩) := by
    rfl
  refine ⟨hreg, hkind, hw, ?_, hquoted⟩
  exact ((decodeAt_plainNode hreg hkind [] "-1.5E3" ⟨.unknown, "<root>"⟩).2 (fun _ => hw) _).mpr
    hquoted

/-- The exception: nought has no sign as a whole number, and keeps its minus as a numeral. -/
example :
    decodeDouble "Double" (Yaml.plainNode "-0" ⟨.unknown, "<root>"⟩) = .ok ⟨0⟩ ∧
      decodeDouble "Double" (.string "-0" ⟨.unknown, "<root>"⟩) = .ok ⟨0x8000000000000000⟩ :=
  ⟨rfl, rfl⟩

end Context
end TypedConfig
