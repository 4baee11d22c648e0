/-
# Numbers are decoded exactly

A text is decoded as a whole number exactly if a sign and digits are written in it, with
any blanks around them, and the value fits: 64 bits as a long number (`decodeWhole_text_iff`),
32 bits as a short one. Every other text is refused for its value, which the failure quotes
with the blanks (`decodeWhole_text_refused`). A long number is decoded as itself, and its
text is decoded as the number again.

A text with a digit is never decoded as a double that is not finite
(`decodeDouble_text_iff`): only the words for infinity and for no number are, and these have
no digits.

Key definitions: `FitsHalfWord`, `WritesNumber`.
Key theorems: `decodeWhole_text_iff`, `decodeWhole_text_refused`, `decodeDouble_text_iff`,
`Context.decodeAt_numbers`.
-/
import TypedConfig.Proofs.Decoding.Builtin
import TypedConfig.Proofs.Decoding.Leaf
import TypedConfig.Proofs.Yaml.Typing

namespace TypedConfig

open Number (WritesDecimal WritesInteger)
open Text (Padded)
open Yaml (FitsWord)

variable {shape text : String} {place : Place} {k : Int64} {z : Int}

/-! ### What is written -/

/-- The numbers that 32 bits hold. -/
def FitsHalfWord (z : Int) : Prop := -2 ^ 31 ≤ z ∧ z ≤ 2 ^ 31 - 1

/-- A sign and digits with the value `z` are written between blanks. -/
def WritesNumber (text : String) (z : Int) : Prop := Padded (WritesInteger · z) text.toList

theorem fitsInt32_iff : Number.fitsInt32 z = true ↔ FitsHalfWord z := by
  rw [Number.fitsInt32, Bool.and_eq_true, decide_eq_true_eq, decide_eq_true_eq]
  exact Iff.rfl

theorem isBlank_of_writesInteger {cs : List Char} (h : WritesInteger cs z) :
    ∀ c ∈ cs, Text.isBlank c = false := by
  have hspell : Yaml.spellsInteger cs = true := Yaml.spellsInteger_iff.mpr ⟨z, h⟩
  exact fun c hc => Yaml.isBlank_of_isNumberChar (Yaml.isNumberChar_of_spellsInteger hspell c hc)

theorem isBlank_of_writesDecimal {cs : List Char} {d : Number.Decimal} (h : WritesDecimal cs d) :
    ∀ c ∈ cs, Text.isBlank c = false := by
  have hspell : Yaml.spellsDouble cs = true := Yaml.spellsDouble_of_writesDecimal h
  exact fun c hc => Yaml.isBlank_of_isNumberChar (Yaml.isNumberChar_of_spellsDouble hspell c hc)

/-- The number that is written in a text is what is read from it without its blanks. -/
theorem writesNumber_iff :
    WritesNumber text z ↔ Number.readInteger (Text.trim text.toList) = some z := by
  rw [WritesNumber, Text.padded_iff fun _ => isBlank_of_writesInteger, Number.readInteger_iff]

/-! ### Whole numbers -/

theorem decodeWhole_text_iff :
    decodeWhole shape (.string text place) = .ok k ↔ WritesNumber text k.toInt := by
  rw [decodeWhole_string_eq_ok_iff, Number.readInt64_eq_some_iff, writesNumber_iff]

/-- A text that is no number of 64 bits is refused for its value. -/
theorem decodeWhole_text_refused (h : ∀ z, ¬ (WritesNumber text z ∧ FitsWord z)) :
    decodeWhole shape (.string text place) =
      .fail (.badValue shape text place.path place.position) := by
  have hnone : Number.readInt64 (Text.trim text.toList) = none := by
    rw [Option.eq_none_iff_forall_ne_some]
    intro k hk
    have hwrites : WritesNumber text k.toInt :=
      writesNumber_iff.mpr (Number.readInt64_eq_some_iff.mp hk)
    exact h k.toInt ⟨hwrites, Yaml.exists_toInt_iff.mp ⟨k, rfl⟩⟩
  rw [decodeWhole, hnone]
  rfl

variable {α : Type}

theorem decodeLeaf_int_iff {node : Node} :
    decodeLeaf (α := α) .int shape node = .ok (.long k) ↔
      decodeWhole shape node = .ok k ∧ FitsHalfWord k.toInt := by
  rw [decodeLeaf_int_eq_ok_iff]
  constructor
  · rintro ⟨n, hn, hfits, he⟩
    cases he
    exact ⟨hn, fitsInt32_iff.mp hfits⟩
  · rintro ⟨hk, hfits⟩
    exact ⟨k, hk, fitsInt32_iff.mpr hfits, rfl⟩

/-- A number that 32 bits do not hold is refused for its value. -/
theorem decodeLeaf_int_refused {node : Node} (hk : decodeWhole shape node = .ok k)
    (h : ¬ FitsHalfWord k.toInt) :
    decodeLeaf (α := α) .int shape node = .fail (.ofValue node shape) := by
  have hfits : ¬ Number.fitsInt32 k.toInt = true := fun hf => h (fitsInt32_iff.mp hf)
  rw [decodeLeaf_int, hk]
  exact if_neg hfits

theorem decodeLeaf_int_text_refused (h : ∀ z, ¬ (WritesNumber text z ∧ FitsHalfWord z)) :
    decodeLeaf (α := α) .int shape (.string text place) =
      .fail (.badValue shape text place.path place.position) := by
  by_cases hlong : ∃ z, WritesNumber text z ∧ FitsWord z
  · -- a long number is written, which is too large for 32 bits
    obtain ⟨z, hz, hfits⟩ := hlong
    obtain ⟨k, rfl⟩ := Yaml.exists_toInt_iff.mpr hfits
    exact decodeLeaf_int_refused (decodeWhole_text_iff.mpr hz) fun hk => h _ ⟨hz, hk⟩
  · rw [decodeLeaf_int, decodeWhole_text_refused fun z hz => hlong ⟨z, hz⟩]
    rfl

/-! ### Doubles -/

/-- A text with a digit is decoded as the finite values of the numerals in it alone. -/
theorem decodeDouble_text_iff (hdigit : ∃ c ∈ text.toList, Text.isDigit c = true) {x : Double} :
    decodeDouble shape (.string text place) = .ok x ↔
      x.isFinite = true ∧ ∃ d, Padded (WritesDecimal · d) text.toList ∧ d.toDouble = x := by
  have hany : ¬ text.toList.any Text.isDigit = false := by
    rw [Bool.not_eq_false]
    exact List.any_eq_true.mpr hdigit
  have hpadded : ∀ d, Padded (WritesDecimal · d) text.toList ↔
      WritesDecimal (Text.trim text.toList) d :=
    fun d => Text.padded_iff fun _ => isBlank_of_writesDecimal
  simp only [hpadded]
  rw [decodeDouble_string_eq_ok_iff]
  constructor
  · rintro ⟨hread, hfinite⟩
    have hx : x.isFinite = true := hfinite.resolve_right hany
    exact ⟨hx, (Number.readDouble_finite_iff hx).mp hread⟩
  · rintro ⟨hx, hd⟩
    exact ⟨(Number.readDouble_finite_iff hx).mpr hd, Or.inl hx⟩

/-! ### Decoding -/

namespace Context

variable {ctx : Context α}

/-- A node that is there is decoded as a leaf as it is read. -/
theorem decodeAt_present_leaf (hreg : ctx.registry = Registry.defaults) {kind : Leaf}
    (hs : (Shape.leaf (α := α) kind false).foreign = false) {node : Node}
    (hp : node.isPresent = true) (site : Site) :
    ctx.decodeAt (.leaf kind false) site node =
      decodeLeaf kind (Shape.leaf (α := α) kind false).text node := by
  rw [decodeAt_leaf hreg hs, guardNull_present hp]

theorem decodeAt_long_text_iff (hreg : ctx.registry = Registry.defaults) (site : Site) :
    ctx.decodeAt (.leaf .long false) site (.string text place) = .ok (.long k) ↔
      WritesNumber text k.toInt := by
  rw [decodeAt_present_leaf hreg rfl rfl, decodeLeaf_long, Outcome.map_eq_ok_iff]
  constructor
  · rintro ⟨n, hn, he⟩
    cases he
    exact decodeWhole_text_iff.mp hn
  · exact fun h => ⟨k, decodeWhole_text_iff.mpr h, rfl⟩

theorem decodeAt_int_text_iff (hreg : ctx.registry = Registry.defaults) (site : Site) :
    ctx.decodeAt (.leaf .int false) site (.string text place) = .ok (.long k) ↔
      WritesNumber text k.toInt ∧ FitsHalfWord k.toInt := by
  rw [decodeAt_present_leaf hreg rfl rfl, decodeLeaf_int_iff, decodeWhole_text_iff]

theorem decodeAt_long_text_refused (hreg : ctx.registry = Registry.defaults) (site : Site)
    (h : ∀ z, ¬ (WritesNumber text z ∧ FitsWord z)) :
    ctx.decodeAt (.leaf .long false) site (.string text place) =
      .fail (.badValue "Long" text place.path place.position) := by
  rw [decodeAt_present_leaf hreg rfl rfl, decodeLeaf_long, decodeWhole_text_refused h]
  rfl

theorem decodeAt_int_text_refused (hreg : ctx.registry = Registry.defaults) (site : Site)
    (h : ∀ z, ¬ (WritesNumber text z ∧ FitsHalfWord z)) :
    ctx.decodeAt (.leaf .int false) site (.string text place) =
      .fail (.badValue "Int" text place.path place.position) := by
  rw [decodeAt_present_leaf hreg rfl rfl, decodeLeaf_int_text_refused h]
  rfl

/-- A long number is decoded as itself. -/
theorem decodeAt_long_self (hreg : ctx.registry = Registry.defaults) (site : Site) (k : Int64)
    (place : Place) : ctx.decodeAt (.leaf .long false) site (.long k place) = .ok (.long k) := by
  rw [decodeAt_present_leaf hreg rfl rfl]
  rfl

theorem decodeAt_int_self_iff (hreg : ctx.registry = Registry.defaults) (site : Site) :
    ctx.decodeAt (.leaf .int false) site (.long k place) = .ok (.long k) ↔
      FitsHalfWord k.toInt := by
  have hself : decodeWhole (Shape.leaf (α := α) .int false).text (.long k place) = .ok k := rfl
  rw [decodeAt_present_leaf hreg rfl rfl, decodeLeaf_int_iff]
  exact and_iff_right hself

theorem decodeAt_int_self_refused (hreg : ctx.registry = Registry.defaults) (site : Site)
    (h : ¬ FitsHalfWord k.toInt) :
    ctx.decodeAt (.leaf .int false) site (.long k place) =
      .fail (.badValue "Int" (int64Text k) place.path place.position) := by
  rw [decodeAt_present_leaf hreg rfl rfl, decodeLeaf_int_refused rfl h]
  rfl

/-- The decimal text of a number writes that number. -/
theorem writesNumber_int64Text (k : Int64) : WritesNumber (int64Text k) k.toInt := by
  have hwrites : WritesInteger (int64Text k).toList k.toInt := by
    rw [int64Text, String.toList_ofList]
    exact Number.writesInteger_integerText k.toInt
  exact ⟨[], (int64Text k).toList, [], by simp, by simp, by simp, hwrites⟩

/-- The text that a long number is decoded as is decoded as the number again. -/
theorem exists_decodeAt_text (hreg : ctx.registry = Registry.defaults) (site : Site) (k : Int64)
    (place : Place) :
    ∃ text, ctx.decodeAt (.leaf .string false) site (.long k place) = .ok (.string text) ∧
      ∀ place', ctx.decodeAt (.leaf .long false) site (.string text place') = .ok (.long k) := by
  refine ⟨int64Text k, ?_, fun place' => ?_⟩
  · rw [decodeAt_present_leaf hreg rfl rfl]
    rfl
  · exact (decodeAt_long_text_iff hreg site).mpr (writesNumber_int64Text k)

theorem decodeAt_double_text_iff (hreg : ctx.registry = Registry.defaults) (site : Site)
    (hdigit : ∃ c ∈ text.toList, Text.isDigit c = true) {value : Value α} :
    ctx.decodeAt (.leaf .double false) site (.string text place) = .ok value ↔
      ∃ x, value = .double x ∧ x.isFinite = true ∧
        ∃ d, Padded (WritesDecimal · d) text.toList ∧ d.toDouble = x := by
  rw [decodeAt_present_leaf hreg rfl rfl, decodeLeaf_double, Outcome.map_eq_ok_iff]
  constructor
  · rintro ⟨x, hx, rfl⟩
    exact ⟨x, rfl, (decodeDouble_text_iff hdigit).mp hx⟩
  · rintro ⟨x, rfl, hx⟩
    exact ⟨x, (decodeDouble_text_iff hdigit).mpr hx, rfl⟩

/-- **Numbers are decoded exactly.** A text is decoded as a long number exactly if a sign and
digits are written in it between blanks, with a value of 64 bits, and then as that value; it
is decoded as a short number exactly if it is as a long one that 32 bits hold. Every other
text is refused for one cause, which quotes the text with its blanks and tells where it is.
A long number is decoded as itself, and as a short one exactly if 32 bits hold it. Its text
is decoded as the number again. A text with a digit is decoded as the finite doubles of the
numerals in it, and so never as infinity or as no number. -/
theorem decodeAt_numbers (hreg : ctx.registry = Registry.defaults) (site : Site) (place : Place) :
    (∀ text (z : Int),
      (∃ k : Int64, k.toInt = z ∧
        ctx.decodeAt (.leaf .long false) site (.string text place) = .ok (.long k)) ↔
        WritesNumber text z ∧ FitsWord z) ∧
    (∀ text (k : Int64),
      ctx.decodeAt (.leaf .int false) site (.string text place) = .ok (.long k) ↔
        ctx.decodeAt (.leaf .long false) site (.string text place) = .ok (.long k) ∧
          FitsHalfWord k.toInt) ∧
    (∀ text, (∀ z, ¬ (WritesNumber text z ∧ FitsWord z)) →
      ctx.decodeAt (.leaf .long false) site (.string text place) =
        .fail (.badValue "Long" text place.path place.position)) ∧
    (∀ text, (∀ z, ¬ (WritesNumber text z ∧ FitsHalfWord z)) →
      ctx.decodeAt (.leaf .int false) site (.string text place) =
        .fail (.badValue "Int" text place.path place.position)) ∧
    (∀ k : Int64, ctx.decodeAt (.leaf .long false) site (.long k place) = .ok (.long k) ∧
      (ctx.decodeAt (.leaf .int false) site (.long k place) = .ok (.long k) ↔
        FitsHalfWord k.toInt) ∧
      (¬ FitsHalfWord k.toInt → ctx.decodeAt (.leaf .int false) site (.long k place) =
        .fail (.badValue "Int" (int64Text k) place.path place.position))) ∧
    (∀ k : Int64, ∃ text,
      ctx.decodeAt (.leaf .string false) site (.long k place) = .ok (.string text) ∧
        ∀ place', ctx.decodeAt (.leaf .long false) site (.string text place') = .ok (.long k)) ∧
    (∀ (text : String) (value : Value α), (∃ c ∈ text.toList, Text.isDigit c = true) →
      (ctx.decodeAt (.leaf .double false) site (.string text place) = .ok value ↔
        ∃ x, value = .double x ∧ x.isFinite = true ∧
          ∃ d, Padded (WritesDecimal · d) text.toList ∧ d.toDouble = x)) := by
  refine ⟨fun text z => ?_, fun text k => ?_, fun _ => decodeAt_long_text_refused hreg site,
    fun _ => decodeAt_int_text_refused hreg site, fun k => ?_,
    fun k => exists_decodeAt_text hreg site k place,
    fun _ _ hdigit => decodeAt_double_text_iff hreg site hdigit⟩
  · rw [← Yaml.exists_toInt_iff]
    constructor
    · rintro ⟨k, rfl, h⟩
      exact ⟨(decodeAt_long_text_iff hreg site).mp h, k, rfl⟩
    · rintro ⟨h, k, rfl⟩
      exact ⟨k, rfl, (decodeAt_long_text_iff hreg site).mpr h⟩
  · rw [decodeAt_int_text_iff hreg, decodeAt_long_text_iff hreg]
  · exact ⟨decodeAt_long_self hreg site k place, decodeAt_int_self_iff hreg site,
      decodeAt_int_self_refused hreg site⟩

/-- Where the texts and numbers at the bounds are read. -/
def boundsPlace : Place := ⟨.at 0 6 "app.yml", "<root>.size"⟩

/-- A text that writes one number alone writes none that fits if that one does not. -/
theorem no_number_of_large {fits : Int → Prop}
    (hread : Number.readInteger (Text.trim text.toList) = some z) (hlarge : ¬ fits z) :
    ∀ z', ¬ (WritesNumber text z' ∧ fits z') := by
  rintro z' ⟨hz', hfits⟩
  rw [writesNumber_iff, hread, Option.some.injEq] at hz'
  exact hlarge (hz' ▸ hfits)

/-- The least number of 64 bits is read, with leading noughts and between blanks of two kinds;
one more than the greatest of 64 bits and of 32 bits is refused, and so is a numeral beyond
the doubles. -/
theorem decodeAt_bounds :
    (ofRegistry (α := Unit) .defaults).registry = .defaults ∧
      (ofRegistry (α := Unit) .defaults).decodeAt (.leaf .long false) []
          (.string " -0009223372036854775808	" boundsPlace) = .ok (.long Int64.minValue) ∧
      (ofRegistry (α := Unit) .defaults).decodeAt (.leaf .long false) []
          (.string " +9223372036854775808" boundsPlace) =
        .fail (.badValue "Long" " +9223372036854775808" "<root>.size" (.at 0 6 "app.yml")) ∧
      (ofRegistry (α := Unit) .defaults).decodeAt (.leaf .int false) []
          (.string "2147483648 " boundsPlace) =
        .fail (.badValue "Int" "2147483648 " "<root>.size" (.at 0 6 "app.yml")) ∧
      (ofRegistry (α := Unit) .defaults).decodeAt (.leaf .int false) []
          (.long 2147483648 boundsPlace) =
        .fail (.badValue "Int" "2147483648" "<root>.size" (.at 0 6 "app.yml")) ∧
      ∀ value, (ofRegistry (α := Unit) .defaults).decodeAt (.leaf .double false) []
        (.string "1e400" boundsPlace) ≠ .ok value := by
  have hreg : (ofRegistry (α := Unit) .defaults).registry = .defaults := rfl
  obtain ⟨hlong, -, hnoLong, hnoInt, hself, -, hdouble⟩ :=
    decodeAt_numbers hreg [] boundsPlace
  have hleast : WritesNumber " -0009223372036854775808	" (-9223372036854775808) :=
    writesNumber_iff.mpr (by decide)
  have htext : int64Text 2147483648 = "2147483648" := by decide
  refine ⟨hreg, ?_, hnoLong _ (no_number_of_large (z := 9223372036854775808) (by decide) ?_),
    hnoInt _ (no_number_of_large (z := 2147483648) (by decide) ?_), ?_, fun value h => ?_⟩
  · obtain ⟨k, hk, h⟩ := (hlong _ _).mpr ⟨hleast, by constructor <;> omega⟩
    have hmin : k = Int64.minValue := Int64.toInt_inj.mp hk
    rwa [hmin] at h
  · exact fun h => absurd h.2 (by decide)
  · exact fun h => absurd h.2 (by decide)
  · have h := (hself 2147483648).2.2 fun h => absurd h.2 (by decide)
    rwa [htext] at h
  · obtain ⟨x, -, hx, d, hd, rfl⟩ := (hdouble "1e400" value ⟨'1', by decide, by decide⟩).mp h
    have hread : Number.readDecimal (Text.trim "1e400".toList) = some ⟨false, 1, 400⟩ := by decide
    rw [Text.padded_iff fun _ => isBlank_of_writesDecimal, ← Number.readDecimal_iff, hread] at hd
    cases hd
    exact absurd hx (by decide)

end Context
end TypedConfig
