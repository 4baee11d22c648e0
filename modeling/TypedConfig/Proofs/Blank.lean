/-
# Trimming

Trimming takes nothing off a text that has no blank characters
(`Text.trim_eq_self`), and from any text no character that is not blank
(`Text.mem_trim`); what blanks are written around a text makes no difference
(`Text.trim_padded`). So what is written without blanks, and then put between blanks, is
found by trimming (`Text.padded_iff`). The visible characters of ASCII are not blank.

Key definitions: `Text.Padded`.
Key theorems: `Text.isBlank_of_visible`, `Text.mem_trim`, `Text.trim_eq_self`,
`Text.trim_padded`, `Text.padded_iff`.
-/
import TypedConfig.Text.Blank

namespace TypedConfig
namespace Text

/-- The characters of ASCII from the exclamation mark to the tilde are not blank. -/
theorem isBlank_of_visible {c : Char} (hlo : 33 ≤ c.toNat) (hhi : c.toNat ≤ 126) :
    isBlank c = false := by
  simp only [isBlank, inRanges, blankRanges, List.any_cons, List.any_nil, Bool.or_false,
    Bool.or_eq_false_iff, Bool.and_eq_false_iff, decide_eq_false_iff_not]
  omega

theorem mem_dropWhile {p : Char → Bool} {c : Char} (hc : p c = false) : ∀ {cs : List Char},
    c ∈ cs → c ∈ cs.dropWhile p
  | d :: ds, h => by
    by_cases hd : p d = true
    · rw [List.dropWhile_cons_of_pos hd]
      rcases List.mem_cons.mp h with rfl | h
      · exact absurd hd (Bool.eq_false_iff.mp hc)
      · exact mem_dropWhile hc h
    · rw [List.dropWhile_cons_of_neg hd]
      exact h

/-- A text with a character that is not blank is not blank. -/
theorem mem_trim {c : Char} (hc : isBlank c = false) {cs : List Char} (h : c ∈ cs) :
    c ∈ trim cs := by
  rw [trim, trimEnd, List.mem_reverse]
  exact mem_dropWhile hc (List.mem_reverse.mpr (mem_dropWhile hc h))

theorem dropWhile_eq_self {p : Char → Bool} {cs : List Char} (h : ∀ c ∈ cs, p c = false) :
    cs.dropWhile p = cs := by
  cases cs with
  | nil => rfl
  | cons c cs =>
    have hc : ¬ p c = true := Bool.eq_false_iff.mp (h c List.mem_cons_self)
    rw [List.dropWhile_cons_of_neg hc]

/-- A text without blank characters is trimmed to itself. -/
theorem trim_eq_self {cs : List Char} (h : ∀ c ∈ cs, isBlank c = false) : trim cs = cs := by
  have hrev : ∀ c ∈ cs.reverse, isBlank c = false := fun c hc => h c (List.mem_reverse.mp hc)
  rw [trim, trimEnd, dropWhile_eq_self h, dropWhile_eq_self hrev, List.reverse_reverse]

theorem trimEnd_append (cs : List Char) {after : List Char} (h : ∀ c ∈ after, isBlank c = true) :
    trimEnd (cs ++ after) = trimEnd cs := by
  rw [trimEnd, List.reverse_append, List.dropWhile_append_of_pos, trimEnd]
  exact fun c hc => h c (List.mem_reverse.mp hc)

theorem trimEnd_blank {cs : List Char} (h : ∀ c ∈ cs, isBlank c = true) : trimEnd cs = [] :=
  trimEnd_append [] h

/-- Blanks around a text are trimmed away with its own. -/
theorem trim_padded {before cs after : List Char} (hbefore : ∀ c ∈ before, isBlank c = true)
    (hafter : ∀ c ∈ after, isBlank c = true) : trim (before ++ cs ++ after) = trim cs := by
  rw [trim, List.append_assoc, List.dropWhile_append_of_pos hbefore, List.dropWhile_append, trim]
  split
  · -- the text itself is blank, so only blanks are left of what follows
    rename_i hempty
    rw [List.isEmpty_iff.mp hempty]
    exact trimEnd_blank fun c hc => hafter c ((List.dropWhile_suffix _).subset hc)
  · exact trimEnd_append _ hafter

/-! ### Texts between blanks -/

/-- The text is one with the property `P`, with any blanks around it. -/
def Padded (P : List Char → Prop) (cs : List Char) : Prop :=
  ∃ before core after, cs = before ++ core ++ after ∧ (∀ c ∈ before, isBlank c = true) ∧
    (∀ c ∈ after, isBlank c = true) ∧ P core

theorem exists_dropWhile (cs : List Char) :
    ∃ before, cs = before ++ cs.dropWhile isBlank ∧ ∀ c ∈ before, isBlank c = true :=
  ⟨cs.takeWhile isBlank, List.takeWhile_append_dropWhile.symm,
    List.all_eq_true.mp List.all_takeWhile⟩

/-- What trimming takes off is blank. -/
theorem exists_trim (cs : List Char) :
    ∃ before after, cs = before ++ trim cs ++ after ∧ (∀ c ∈ before, isBlank c = true) ∧
      ∀ c ∈ after, isBlank c = true := by
  obtain ⟨before, hbefore, hb⟩ := exists_dropWhile cs
  obtain ⟨after, hafter, ha⟩ := exists_dropWhile (cs.dropWhile isBlank).reverse
  have hend : cs.dropWhile isBlank = trim cs ++ after.reverse := by
    rw [trim, trimEnd, ← List.reverse_append, ← hafter, List.reverse_reverse]
  refine ⟨before, after.reverse, ?_, hb, fun c hc => ha c (List.mem_reverse.mp hc)⟩
  rw [List.append_assoc, ← hend, ← hbefore]

/-- What has no blanks itself is found between blanks by trimming. -/
theorem padded_iff {P : List Char → Prop} (hP : ∀ core, P core → ∀ c ∈ core, isBlank c = false)
    {cs : List Char} : Padded P cs ↔ P (trim cs) := by
  constructor
  · rintro ⟨before, core, after, rfl, hbefore, hafter, hcore⟩
    rw [trim_padded hbefore hafter, trim_eq_self (hP core hcore)]
    exact hcore
  · intro h
    obtain ⟨before, after, hcs, hbefore, hafter⟩ := exists_trim cs
    exact ⟨before, trim cs, after, hcs, hbefore, hafter, h⟩

end Text
end TypedConfig
