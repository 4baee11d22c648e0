/-
# What letters are changed to

The other case of a letter is found in tables of runs. Two facts about the tables carry over
to all characters. No character other than a mark between words has such a mark in its upper
case (`upper_no_mark`). And a lower case is in lower case: what a character is changed to is
not changed once more (`lower_settled`).

Both are read off the ends of the runs: where a run is shifted to, no other run begins or
ends (`CaseRun.covers_image_eq_false`).

Key definitions: `CaseRun.image`, `CaseRun.reaches`.
Key theorems: `CaseRun.covers_image_eq_false`, `upper_no_mark`, `lower_settled`.
-/
import TypedConfig.Text.LetterCase

namespace TypedConfig
namespace Text

variable {c d : Char} {n m : Nat}

/-! ### Runs -/

namespace CaseRun

variable {run other : CaseRun}

theorem covers_iff :
    run.covers n = true ↔ run.first ≤ n ∧ n ≤ run.last ∧ (n - run.first) % run.stride = 0 := by
  simp [covers, and_assoc]

/-- The run of one code point. -/
def only (n : Nat) : CaseRun := ⟨n, n, 1, 0⟩

theorem covers_only : (only n).covers n = true :=
  covers_iff.mpr ⟨Nat.le_refl n, Nat.le_refl n, Nat.mod_one _⟩

/-- What the letter with code point `n` is changed to as one of the run. -/
def image (run : CaseRun) (n : Nat) : Nat := ((n : Int) + run.shift).toNat

/-- Whether a letter of the run might be changed to one of `other`: the stretches overlap, and
it is not the case that `other` means every second code point and the images are those in
between. The tests are written as functions on numbers, which the kernel knows how to run. -/
def reaches (run other : CaseRun) : Bool :=
  Nat.ble other.first (run.image run.last) && Nat.ble (run.image run.first) other.last &&
    !(Nat.beq other.stride 2 && (Nat.beq run.stride 2 || Nat.beq run.first run.last) &&
      Nat.beq ((run.image run.first - other.first) % 2) 1)

theorem reaches_eq_false_iff :
    run.reaches other = false ↔
      (other.first ≤ run.image run.last → run.image run.first ≤ other.last →
        other.stride = 2 ∧ (run.stride = 2 ∨ run.first = run.last) ∧
          (run.image run.first - other.first) % 2 = 1) := by
  simp only [reaches, Bool.and_eq_false_imp, Bool.not_eq_false', Bool.and_eq_true, Nat.ble_eq,
    Nat.beq_eq, Bool.or_eq_true, and_imp, and_assoc]

/-- No letter of a run is changed to one of a run that it does not reach. -/
theorem covers_image_eq_false (h : run.reaches other = false) (hn : run.covers n = true) :
    other.covers (run.image n) = false := by
  rw [← Bool.not_eq_true]
  intro hm
  obtain ⟨hlow, hhigh, hstride⟩ := covers_iff.mp hn
  obtain ⟨hlow', hhigh', hstride'⟩ := covers_iff.mp hm
  have hfirst : run.image run.first ≤ run.image n := by unfold image; omega
  have hlast : run.image n ≤ run.image run.last := by unfold image; omega
  obtain ⟨htwo, hstep, hodd⟩ := reaches_eq_false_iff.mp h (Nat.le_trans hlow' hlast)
    (Nat.le_trans hfirst hhigh')
  -- both letters lie an even way behind the beginnings of their runs, which lie an odd way apart
  have heven : (n - run.first) % 2 = 0 := by
    rcases hstep with hs | hs
    · rwa [hs] at hstride
    · have : n = run.first := by omega
      rw [this, Nat.sub_self]
  have heven' : (run.image n - other.first) % 2 = 0 := by rwa [htwo] at hstride'
  unfold image at *
  omega

end CaseRun

/-! ### The tables -/

/-- A letter has a long form, is changed as one of a run, or has no other case. -/
theorem otherCase_cases (longForms : List (Nat × List Nat)) (runs : List CaseRun) (n : Nat) :
    (∃ ns, (n, ns) ∈ longForms ∧ otherCase longForms runs n = ns) ∨
      (∃ run ∈ runs, run.covers n = true ∧ otherCase longForms runs n = [run.image n]) ∨
      otherCase longForms runs n = [n] := by
  unfold otherCase
  cases hl : longForms.lookup n with
  | some ns =>
    obtain ⟨before, after, he, -⟩ := List.lookup_eq_some_iff.mp hl
    exact Or.inl ⟨ns, by rw [he]; simp, rfl⟩
  | none =>
    cases hf : runs.find? (·.covers n) with
    | some run =>
      have hcovers : run.covers n = true := List.find?_some (p := fun r : CaseRun => r.covers n) hf
      exact Or.inr (Or.inl ⟨run, List.mem_of_find?_eq_some hf, hcovers, rfl⟩)
    | none => exact Or.inr (Or.inr rfl)

/-- A letter that no form and no run is meant for has no other case. -/
theorem otherCase_eq_self {longForms : List (Nat × List Nat)} {runs : List CaseRun}
    (hlong : ∀ form ∈ longForms, form.1 ≠ n) (hruns : ∀ run ∈ runs, run.covers n = false) :
    otherCase longForms runs n = [n] := by
  rcases otherCase_cases longForms runs n with ⟨ns, hm, -⟩ | ⟨run, hm, hc, -⟩ | h
  · exact absurd rfl (hlong _ hm)
  · rw [hruns run hm] at hc
    cases hc
  · exact h

/-- The other case of a letter is not the code point `m`, if no run reaches it. -/
theorem image_ne {runs : List CaseRun} {run : CaseRun}
    (h : runs.any (·.reaches (.only m)) = false) (hm : run ∈ runs) (hn : run.covers n = true) :
    run.image n ≠ m := by
  rintro rfl
  have hapart : run.reaches (.only (run.image n)) = false := by
    simpa using List.any_eq_false.mp h run hm
  have hfalse := CaseRun.covers_image_eq_false hapart hn
  rw [CaseRun.covers_only] at hfalse
  cases hfalse

/-- No run of letters with a lower case reaches one of them, or the letter with a long lower
case. -/
theorem lowerRuns_settled :
    (lowerRuns.any fun run => lowerRuns.any run.reaches || run.reaches (.only 304)) = false := by
  decide +kernel

theorem otherCase_image {run : CaseRun} (hm : run ∈ lowerRuns) (hn : run.covers n = true) :
    otherCase longLowerForms lowerRuns (run.image n) = [run.image n] := by
  have hapart : (lowerRuns.any run.reaches || run.reaches (.only 304)) = false := by
    simpa using List.any_eq_false.mp lowerRuns_settled run hm
  obtain ⟨hruns, hlong⟩ := Bool.or_eq_false_iff.mp hapart
  apply otherCase_eq_self
  · have hne : run.image n ≠ 304 := by
      intro he
      have hfalse := CaseRun.covers_image_eq_false hlong hn
      rw [he, CaseRun.covers_only] at hfalse
      cases hfalse
    simpa [longLowerForms] using hne.symm
  · intro other ho
    have hreach : run.reaches other = false := by simpa using List.any_eq_false.mp hruns other ho
    exact CaseRun.covers_image_eq_false hreach hn

/-! ### Characters -/

theorem toNat_ofNat_of_valid (hn : n.isValidChar) : (Char.ofNat n).toNat = n := by
  rw [Char.ofNat, dif_pos hn]
  rfl

/-- A number that is no code point stands for the character nought. -/
theorem toNat_ofNat (n : Nat) : (Char.ofNat n).toNat = n ∨ Char.ofNat n = '\x00' := by
  by_cases hn : n.isValidChar
  · exact Or.inl (toNat_ofNat_of_valid hn)
  · right
    rw [Char.ofNat, dif_neg hn]
    rfl

/-- A mark is in the other case of no character but itself, if no long form holds it and no
run reaches it. -/
theorem not_mem_otherCase {longForms : List (Nat × List Nat)} {runs : List CaseRun} {mark : Char}
    (hmark : mark ≠ '\x00') (hlong : ∀ form ∈ longForms, mark.toNat ∉ form.2)
    (hruns : runs.any (·.reaches (.only mark.toNat)) = false) (hc : c ≠ mark) :
    mark ∉ (otherCase longForms runs c.toNat).map Char.ofNat := by
  intro hm
  obtain ⟨n, hn, he⟩ := List.mem_map.mp hm
  have hvalue : n = mark.toNat := by
    rcases toNat_ofNat n with h | h
    · rw [← h, he]
    · exact absurd (he.symm.trans h) hmark
  rcases otherCase_cases longForms runs c.toNat with ⟨ns, hns, hoc⟩ | ⟨run, hrun, hcov, hoc⟩ | hoc
  · rw [hoc, hvalue] at hn
    exact hlong _ hns hn
  · rw [hoc, List.mem_singleton, hvalue] at hn
    exact image_ne hruns hrun hcov hn.symm
  · rw [hoc, List.mem_singleton, hvalue] at hn
    exact hc (Char.toNat_inj.mp hn.symm)

/-- The marks between words are the other case of no letter. -/
theorem runs_reach_no_mark :
    upperRuns.any (·.reaches (.only '_'.toNat)) = false ∧
      upperRuns.any (·.reaches (.only '-'.toNat)) = false ∧
      lowerRuns.any (·.reaches (.only '_'.toNat)) = false := by
  decide +kernel

/-- The upper case of a character that is no mark between words has none in it. -/
theorem upper_no_mark (hlow : c ≠ '_') (hdash : c ≠ '-') : '_' ∉ upper c ∧ '-' ∉ upper c :=
  ⟨not_mem_otherCase (by decide) (by decide) runs_reach_no_mark.1 hlow,
    not_mem_otherCase (by decide) (by decide) runs_reach_no_mark.2.1 hdash⟩

theorem lower_no_underscore (hc : c ≠ '_') : '_' ∉ lower c :=
  not_mem_otherCase (by decide) (by decide) runs_reach_no_mark.2.2 hc

/-- The character nought and the dot above have no case. -/
theorem caseless : lower '\x00' = ['\x00'] ∧ isUppercase '\u0307' = false := by
  decide +kernel

/-! ### Letters of ASCII -/

/-- In ASCII the letters from A to Z are capitals, and the small letters follow 32 code points
behind. -/
theorem ascii_case : ∀ n < 128,
    (isUppercase (Char.ofNat n) = true ↔ 65 ≤ n ∧ n ≤ 90) ∧
      (97 ≤ n → n ≤ 122 → upper (Char.ofNat n) = [Char.ofNat (n - 32)] ∧
        lower (Char.ofNat (n - 32)) = [Char.ofNat n]) := by
  decide +kernel

theorem isUppercase_ascii_iff (hc : c.toNat < 128) :
    isUppercase c = true ↔ 65 ≤ c.toNat ∧ c.toNat ≤ 90 := by
  have h := (ascii_case c.toNat hc).1
  rwa [Char.ofNat_toNat] at h

/-- A small letter of ASCII and its capital are each the other case of the other. -/
theorem upper_lower_ascii (hlo : 97 ≤ c.toNat) (hhi : c.toNat ≤ 122) :
    upper c = [Char.ofNat (c.toNat - 32)] ∧ lower (Char.ofNat (c.toNat - 32)) = [c] := by
  have h := (ascii_case c.toNat (by omega)).2 hlo hhi
  rwa [Char.ofNat_toNat] at h

/-- What a letter is changed to in lower case is one character, which is in lower case
already; there is one letter whose lower case takes two. -/
theorem lower_settled (c : Char) :
    lower c = ['i', '\u0307'] ∨ ∃ d, lower c = [d] ∧ lower d = [d] := by
  rcases otherCase_cases longLowerForms lowerRuns c.toNat with
    ⟨ns, hns, hoc⟩ | ⟨run, hrun, hcov, hoc⟩ | hoc
  · left
    have he : ns = [105, 775] := by
      have hform := List.mem_singleton.mp hns
      exact (Prod.mk.inj hform).2
    rw [lower, hoc, he]
    rfl
  · right
    refine ⟨Char.ofNat (run.image c.toNat), by rw [lower, hoc]; rfl, ?_⟩
    rcases toNat_ofNat (run.image c.toNat) with h | h
    · rw [lower, h, otherCase_image hrun hcov]
      rfl
    · rw [h]
      exact caseless.1
  · right
    have hself : lower c = [c] := by
      rw [lower, hoc, List.map_singleton, Char.ofNat_toNat]
    exact ⟨c, hself, hself⟩

end Text
end TypedConfig
