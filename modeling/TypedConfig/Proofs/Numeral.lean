/-
# How numbers are written

A whole number is written as an optional sign and digits (`WritesInteger`). A decimal
numeral is written as an optional sign, digits with an optional point among or around
them and an optional power of ten (`WritesDecimal`). The readers accept what is written
so and nothing else, and give the exact value (`readInteger_iff`, `readDecimal_iff`).

Beside numerals only the words for infinity and for no number are read as doubles, and
these are not finite (`readDouble_finite_iff`). The decimal text of a number of 64 bits
is read back as that number (`readInt64_integerText`).

Key definitions: `Sign`, `Digits`, `WritesInteger`, `Significand`, `Exponent`,
`WritesDecimal`.
Key theorems: `readInteger_iff`, `readDecimal_iff`, `readDouble_finite_iff`,
`readInt64_integerText`.
-/
import TypedConfig.Proofs.Number

namespace TypedConfig
namespace Number

variable {cs ds whole places power rest sign : List Char} {negative : Bool} {exponent k : Int}

/-! ### The grammar -/

/-- An optional sign; `true` stands for a minus. -/
inductive Sign : List Char → Bool → Prop
  | none : Sign [] false
  | plus : Sign ['+'] false
  | minus : Sign ['-'] true

/-- A row of at least one digit. -/
def Digits (ds : List Char) : Prop := ds ≠ [] ∧ ∀ c ∈ ds, Text.isDigit c = true

/-- `[sign] digits`, with the value `k`. -/
def WritesInteger (cs : List Char) (k : Int) : Prop :=
  ∃ sign negative ds, Sign sign negative ∧ Digits ds ∧ cs = sign ++ ds ∧
    k = withSign negative (digitsValue ds)

/-- `digits [. [digits]] | . digits`, with the digits in front of the point and the places
behind it. -/
inductive Significand : List Char → List Char → List Char → Prop
  | whole {ds : List Char} (h : Digits ds) : Significand ds ds []
  | point {ds places : List Char} (h : Digits ds) (hp : ∀ c ∈ places, Text.isDigit c = true) :
      Significand (ds ++ '.' :: places) ds places
  | fraction {places : List Char} (h : Digits places) : Significand ('.' :: places) [] places

/-- `[(e | E) [sign] digits]`, with the power of ten. -/
inductive Exponent : List Char → Int → Prop
  | none : Exponent [] 0
  | some {letter : Char} {cs : List Char} {k : Int} (hletter : letter = 'e' ∨ letter = 'E')
      (h : WritesInteger cs k) : Exponent (letter :: cs) k

/-- A significand and a power of ten behind it, with the exact value. -/
def WritesUnsigned (negative : Bool) (cs : List Char) (d : Decimal) : Prop :=
  ∃ body whole places power exponent, Significand body whole places ∧ Exponent power exponent ∧
    cs = body ++ power ∧
    d = ⟨negative, digitsValue (whole ++ places), exponent - places.length⟩

/-- `[sign] (digits [. [digits]] | . digits) [(e | E) [sign] digits]`, with the exact value. -/
def WritesDecimal (cs : List Char) (d : Decimal) : Prop :=
  ∃ sign negative rest, Sign sign negative ∧ cs = sign ++ rest ∧ WritesUnsigned negative rest d

/-! ### Signs and digits -/

theorem isDigits_iff : isDigits ds = true ↔ Digits ds := by
  simp [isDigits, Digits]

theorem ne_sign_of_isDigit {c : Char} (hc : Text.isDigit c = true) : c ≠ '-' ∧ c ≠ '+' := by
  constructor <;> rintro rfl <;> exact absurd hc (by decide)

/-- A sign is split off unless another one follows it. -/
theorem splitSign_of_sign (hsign : Sign sign negative) {c : Char} (hc : c ≠ '-' ∧ c ≠ '+')
    (rest : List Char) : splitSign (sign ++ c :: rest) = (negative, c :: rest) := by
  cases hsign with
  | none =>
    rw [List.nil_append, splitSign]
    · exact fun _ h => hc.1 (List.cons.inj h).1
    · exact fun _ h => hc.2 (List.cons.inj h).1
  | plus => rfl
  | minus => rfl

theorem exists_sign (cs : List Char) :
    ∃ sign, Sign sign (splitSign cs).1 ∧ cs = sign ++ (splitSign cs).2 := by
  obtain ⟨sign, hcs, ⟨rfl, hneg⟩ | ⟨rfl | rfl, hneg⟩⟩ := splitSign_spec cs
  · exact ⟨['-'], hneg ▸ .minus, hcs⟩
  · exact ⟨['+'], hneg ▸ .plus, hcs⟩
  · exact ⟨[], hneg ▸ .none, hcs⟩

/-! ### Whole numbers -/

/-- A text is read as a whole number exactly if it is written as one. -/
theorem readInteger_iff : readInteger cs = some k ↔ WritesInteger cs k := by
  rw [readInteger_eq_some_iff]
  constructor
  · rintro ⟨hdigits, hk⟩
    obtain ⟨sign, hsign, hcs⟩ := exists_sign cs
    exact ⟨sign, _, _, hsign, isDigits_iff.mp hdigits, hcs, hk⟩
  · rintro ⟨sign, negative, ds, hsign, hdigits, rfl, rfl⟩
    obtain ⟨c, more, rfl⟩ := List.exists_cons_of_ne_nil hdigits.1
    have hc := ne_sign_of_isDigit (hdigits.2 c List.mem_cons_self)
    rw [splitSign_of_sign hsign hc]
    exact ⟨isDigits_iff.mpr hdigits, rfl⟩

theorem isDigit_of_core {c : Char} (h : c.isDigit = true) : Text.isDigit c = true := by
  simpa [Char.isDigit, Text.isDigit, Char.le_def] using h

theorem digits_naturalText (n : Nat) : Digits (naturalText n) :=
  ⟨Nat.toDigits_ne_nil, fun _ hc =>
    isDigit_of_core (Nat.isDigit_of_mem_toDigits (by decide) (by decide) hc)⟩

theorem digitsValue_naturalText (n : Nat) : digitsValue (naturalText n) = n := by
  have h : Nat.ofDigitChars 10 (naturalText n) 0 = n := Nat.ofDigitChars_ten_toDigits
  rw [Nat.ofDigitChars_eq_foldl] at h
  exact h

theorem writesInteger_integerText (k : Int) : WritesInteger (integerText k) k := by
  cases k with
  | ofNat n => exact ⟨[], false, _, .none, digits_naturalText n, rfl, by
      rw [digitsValue_naturalText]; rfl⟩
  | negSucc n => exact ⟨['-'], true, _, .minus, digits_naturalText (n + 1), rfl, by
      rw [digitsValue_naturalText]; rfl⟩

/-- The decimal text of a number of 64 bits is read back. -/
theorem readInt64_integerText (k : Int64) : readInt64 (integerText k.toInt) = some k :=
  readInt64_eq_some_iff.mpr (readInteger_iff.mpr (writesInteger_integerText k.toInt))

/-! ### Decimal numerals -/

theorem readPower_iff : readPower cs = some exponent ↔ Exponent cs exponent := by
  constructor
  · intro h
    cases cs with
    | nil =>
      cases h
      exact .none
    | cons c cs =>
      rw [readPower, Option.ite_none_right_eq_some] at h
      exact .some h.1 (readInteger_iff.mp h.2)
  · intro h
    cases h with
    | none => rfl
    | some hletter h => rw [readPower, if_pos hletter, readInteger_iff.mpr h]

/-- A power of ten begins neither with a digit nor with a point. -/
theorem Exponent.head (h : Exponent power exponent) :
    power = [] ∨ ∃ c cs, power = c :: cs ∧ Text.isDigit c = false ∧ c ≠ '.' := by
  cases h with
  | none => exact Or.inl rfl
  | some hletter h =>
    refine Or.inr ⟨_, _, rfl, ?_⟩
    rcases hletter with rfl | rfl <;> decide

/-- The digits in front of a text are followed by something else or by nothing. -/
theorem exists_span (cs : List Char) :
    ∃ ds rest, cs = ds ++ rest ∧ (∀ c ∈ ds, Text.isDigit c = true) ∧
      (rest = [] ∨ ∃ c more, rest = c :: more ∧ Text.isDigit c = false) := by
  refine ⟨cs.takeWhile Text.isDigit, cs.dropWhile Text.isDigit,
    List.takeWhile_append_dropWhile.symm, List.all_eq_true.mp List.all_takeWhile, ?_⟩
  cases hd : cs.dropWhile Text.isDigit with
  | nil => exact Or.inl rfl
  | cons c more =>
    have hhead := List.head?_dropWhile_not Text.isDigit cs
    rw [hd] at hhead
    exact Or.inr ⟨c, more, rfl, by simpa using hhead⟩

/-- Without a point the power of ten follows the digits. -/
theorem readUnsigned_whole (hds : ∀ c ∈ ds, Text.isDigit c = true)
    (hrest : rest = [] ∨ ∃ c more, rest = c :: more ∧ Text.isDigit c = false)
    (hpoint : rest.head? ≠ some '.') (negative : Bool) :
    readUnsigned negative (ds ++ rest) =
      if ds.isEmpty then none
      else (readPower rest).map fun exponent => ⟨negative, digitsValue ds, exponent⟩ := by
  obtain ⟨htake, hdrop⟩ := span_digits hds hrest
  rw [readUnsigned, htake, hdrop]
  cases rest with
  | nil => simp
  | cons c more =>
    have hc : c ≠ '.' := by simpa using hpoint
    simp [hc]

/-- A point is followed by places, and these by the power of ten. -/
theorem readUnsigned_point (hds : ∀ c ∈ ds, Text.isDigit c = true)
    (hp : ∀ c ∈ places, Text.isDigit c = true)
    (hrest : rest = [] ∨ ∃ c more, rest = c :: more ∧ Text.isDigit c = false) (negative : Bool) :
    readUnsigned negative (ds ++ '.' :: (places ++ rest)) =
      if ds.isEmpty && places.isEmpty then none
      else (readPower rest).map fun exponent =>
        ⟨negative, digitsValue (ds ++ places), exponent - places.length⟩ := by
  have hmark : ∃ c more, '.' :: (places ++ rest) = c :: more ∧ Text.isDigit c = false :=
    ⟨'.', _, rfl, by decide⟩
  obtain ⟨htake, hdrop⟩ := span_digits hds (Or.inr hmark)
  obtain ⟨htake', hdrop'⟩ := span_digits hp hrest
  rw [readUnsigned, htake, hdrop]
  simp only [htake', hdrop']

/-- A numeral without its sign begins with a digit or with a point. -/
theorem WritesUnsigned.head {d : Decimal} (h : WritesUnsigned negative cs d) :
    ∃ c more, cs = c :: more ∧ c ≠ '-' ∧ c ≠ '+' := by
  have hdigits : ∀ {ds : List Char} (more : List Char), Digits ds →
      ∃ c rest, ds ++ more = c :: rest ∧ c ≠ '-' ∧ c ≠ '+' := by
    intro ds more hds
    obtain ⟨c, rest, rfl⟩ := List.exists_cons_of_ne_nil hds.1
    exact ⟨c, rest ++ more, rfl, ne_sign_of_isDigit (hds.2 c List.mem_cons_self)⟩
  obtain ⟨body, whole, places, power, exponent, hbody, -, rfl, -⟩ := h
  cases hbody with
  | whole hds => exact hdigits power hds
  | point hds hp =>
    rw [List.append_assoc]
    exact hdigits _ hds
  | fraction hp => exact ⟨'.', _, rfl, by decide⟩

theorem readUnsigned_iff {d : Decimal} :
    readUnsigned negative cs = some d ↔ WritesUnsigned negative cs d := by
  constructor
  · intro h
    obtain ⟨ds, after, rfl, hds, hafter⟩ := exists_span cs
    by_cases hpoint : after.head? = some '.'
    · obtain ⟨more, rfl⟩ := List.head?_eq_some_iff.mp hpoint
      obtain ⟨places, rest, rfl, hp, hrest⟩ := exists_span more
      rw [readUnsigned_point hds hp hrest, Option.ite_none_left_eq_some] at h
      obtain ⟨hne, h⟩ := h
      obtain ⟨exponent, hpower, rfl⟩ := Option.map_eq_some_iff.mp h
      rw [readPower_iff] at hpower
      cases ds with
      | nil =>
        have hplaces : Digits places := ⟨fun he => hne (by rw [he]; rfl), hp⟩
        exact ⟨_, _, _, rest, exponent, .fraction hplaces, hpower, rfl, rfl⟩
      | cons c more =>
        have hwhole : Digits (c :: more) := ⟨List.cons_ne_nil c more, hds⟩
        exact ⟨_, _, _, rest, exponent, .point hwhole hp, hpower, by simp, rfl⟩
    · rw [readUnsigned_whole hds hafter hpoint, Option.ite_none_left_eq_some] at h
      obtain ⟨hne, h⟩ := h
      obtain ⟨exponent, hpower, rfl⟩ := Option.map_eq_some_iff.mp h
      have hwhole : Digits ds := ⟨fun he => hne (List.isEmpty_iff.mpr he), hds⟩
      exact ⟨_, _, _, after, exponent, .whole hwhole, readPower_iff.mp hpower, rfl, by simp⟩
  · rintro ⟨body, whole, places, power, exponent, hbody, hpower, rfl, rfl⟩
    have hrest : power = [] ∨ ∃ c more, power = c :: more ∧ Text.isDigit c = false :=
      hpower.head.imp id fun ⟨c, more, he, hc, _⟩ => ⟨c, more, he, hc⟩
    have hread := readPower_iff.mpr hpower
    cases hbody with
    | whole hds =>
      have hpoint : power.head? ≠ some '.' := by
        rcases hpower.head with rfl | ⟨c, more, rfl, -, hc⟩
        · simp
        · simpa using hc
      rw [readUnsigned_whole hds.2 hrest hpoint, hread, if_neg (by simpa using hds.1)]
      simp
    | point hds hp =>
      rw [List.append_assoc, List.cons_append, readUnsigned_point hds.2 hp hrest, hread,
        if_neg (by simp [hds.1])]
      rfl
    | fraction hp =>
      have hnone : ∀ c ∈ ([] : List Char), Text.isDigit c = true := nofun
      have h := readUnsigned_point hnone hp.2 hrest negative
      rw [hread, if_neg (by simpa using hp.1)] at h
      exact h

/-- A text is read as a numeral exactly if it is written as one. -/
theorem readDecimal_iff {d : Decimal} : readDecimal cs = some d ↔ WritesDecimal cs d := by
  rw [readDecimal, readUnsigned_iff]
  constructor
  · intro h
    obtain ⟨sign, hsign, hcs⟩ := exists_sign cs
    exact ⟨sign, _, _, hsign, hcs, h⟩
  · rintro ⟨sign, negative, rest, hsign, rfl, h⟩
    obtain ⟨c, more, rfl, hc⟩ := h.head
    rwa [splitSign_of_sign hsign hc]

/-! ### Words -/

/-- The words for infinity and for no number stand for magnitudes that are not finite. -/
theorem magnitude_of_word {word : List Char} {m : Nat} (h : doubleWords.lookup word = some m) :
    Double.infinite ≤ m ∧ m < 2 ^ 63 := by
  have hall : ∀ entry ∈ doubleWords, Double.infinite ≤ entry.2 ∧ entry.2 < 2 ^ 63 := by decide
  obtain ⟨before, after, he, -⟩ := List.lookup_eq_some_iff.mp h
  exact hall (word, m) (by rw [he]; simp)

/-- A text is read as a finite double exactly if it is written as a numeral whose double is
finite. -/
theorem readDouble_finite_iff {x : Double} (hx : x.isFinite = true) :
    readDouble cs = some x ↔ ∃ d, WritesDecimal cs d ∧ d.toDouble = x := by
  rw [readDouble]
  cases hd : readDecimal cs with
  | some d =>
    constructor
    · intro h
      exact ⟨d, readDecimal_iff.mp hd, Option.some.inj h⟩
    · rintro ⟨d', hd', rfl⟩
      rw [readDecimal_iff.mpr hd'] at hd
      exact congrArg (fun d : Decimal => some d.toDouble) (Option.some.inj hd).symm
  | none =>
    constructor
    · intro h
      obtain ⟨m, hm, rfl⟩ := Option.map_eq_some_iff.mp h
      obtain ⟨hlow, hhigh⟩ := magnitude_of_word hm
      rw [Double.isFinite, Double.magnitude_ofMagnitude _ hhigh, decide_eq_true_eq] at hx
      omega
    · rintro ⟨d, hd', -⟩
      rw [readDecimal_iff.mpr hd'] at hd
      cases hd

end Number
end TypedConfig
