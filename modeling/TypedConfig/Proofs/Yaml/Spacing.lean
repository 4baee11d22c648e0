/-
# Layout between tokens

What stands between the tokens of a text without comments is layout: blanks and
line breaks. Where no block is open it is all passed over in front of a token
(`Scan.skipToToken_layout`), and up to its first line break behind one
(`Scan.skipToLineEnd_layout`). A line break is read whole, also when it is made of two
characters (`Scan.exists_skipBreak`).

Key definitions: `Scan.next`, `Scan.isLayout`, `Scan.AtToken`, `Scan.Skips`.
Key theorems: `Scan.exists_skipBreak`, `Scan.skipToToken_layout`,
`Scan.skipToLineEnd_layout`.
-/
import TypedConfig.Proofs.Yaml.Scan
import TypedConfig.Yaml.Spacing

namespace TypedConfig
namespace Yaml
namespace Scan

variable {β : Type} {s : ScanState} {mark : Mark} {lb : Bool} {c : Char} {cs ws tail : List Char}

/-- The next character of a text; a null character after its end. -/
def next (cs : List Char) : Char := cs.head?.getD '\x00'

theorem next_cons : next (c :: cs) = c := rfl

theorem peek_moved (k : Char → Scan β) :
    (peek >>= k) (s.moved cs mark lb) = k (next cs) (s.moved cs mark lb) :=
  peek_bind k _

theorem peekAt_one_moved (k : Char → Scan β) :
    (peekAt 1 >>= k) (s.moved (c :: cs) mark lb) =
      k (next cs) (s.moved (c :: cs) mark lb) := by
  rw [peekAt_bind, next, List.head?_eq_getElem?]
  rfl

theorem skip_moved :
    skip (s.moved (c :: cs) mark lb) =
      .ok ((), s.moved cs ⟨mark.index + 1, mark.line, mark.column + 1⟩ false) := rfl

theorem skipBlank_moved :
    skipBlank (s.moved (c :: cs) mark lb) =
      .ok ((), s.moved cs ⟨mark.index + 1, mark.line, mark.column + 1⟩ lb) := rfl

/-- A carriage return and a line feed are one line break. -/
theorem skipBreak_crlf :
    skipBreak (s.moved ('\r' :: '\n' :: cs) mark lb) =
      .ok ((), s.moved cs ⟨mark.index + 2, mark.line + 1, 0⟩ true) := rfl

theorem skipBreak_single (hc : isBreak c = true) (hcrlf : ¬(c = '\r' ∧ next cs = '\n')) :
    skipBreak (s.moved (c :: cs) mark lb) =
      .ok ((), s.moved cs ⟨mark.index + 1, mark.line + 1, 0⟩ true) := by
  have hif : (c == '\r' && next cs == '\n') = false := by
    rw [Bool.and_eq_false_iff, beq_eq_false_iff_ne, beq_eq_false_iff_ne]
    exact Decidable.not_and_iff_or_not.mp hcrlf
  rw [skipBreak, peek_moved, peekAt_one_moved, next_cons, if_neg (Bool.eq_false_iff.mp hif),
    peek_moved, next_cons, if_pos hc]
  rfl

/-! ### Layout -/

/-- What may stand between tokens: blanks and line breaks. -/
def isLayout (c : Char) : Bool := isBlank c || isBreak c

/-- The text goes on with a token, or ends. -/
structure AtToken (cs : List Char) : Prop where
  layout : isLayout (next cs) = false
  comment : next cs ≠ '#'

theorem AtToken.not_blank (h : AtToken cs) : isBlank (next cs) = false :=
  (Bool.or_eq_false_iff.mp h.layout).1

theorem AtToken.not_break (h : AtToken cs) : isBreak (next cs) = false :=
  (Bool.or_eq_false_iff.mp h.layout).2

/-- A line break is read whole: it is the next character, or that and the one after it. -/
theorem exists_skipBreak (s : ScanState) (ws : List Char) (mark : Mark) (lb : Bool)
    (hc : isBreak c = true) (ht : AtToken tail) :
    ∃ ws' m, (ws' = ws ∨ ws = '\n' :: ws') ∧
      skipBreak (s.moved (c :: (ws ++ tail)) mark lb) =
        .ok ((), s.moved (ws' ++ tail) m true) := by
  by_cases hcrlf : c = '\r' ∧ next (ws ++ tail) = '\n'
  · obtain ⟨rfl, hn⟩ := hcrlf
    cases ws with
    | nil =>
      have hbreak := ht.not_break
      rw [List.nil_append] at hn
      rw [hn] at hbreak
      cases hbreak
    | cons d ws =>
      rw [List.cons_append, next_cons] at hn
      subst hn
      exact ⟨ws, _, Or.inr rfl, skipBreak_crlf⟩
  · exact ⟨ws, _, Or.inl rfl, skipBreak_single hc hcrlf⟩

/-! ### Skipping to the next token -/

theorem allowKeyInBlock_moved :
    allowKeyInBlock (s.moved cs mark lb) = .ok ((), s.newLine.moved cs mark lb) := by
  unfold allowKeyInBlock ScanState.newLine
  by_cases h : s.flowLevel = 0
  · have h' : (s.moved cs mark lb).flowLevel = 0 := h
    rw [if_pos h, update, if_pos h']
    rfl
  · have h' : ¬(s.moved cs mark lb).flowLevel = 0 := h
    rw [if_neg h, update, if_neg h']

/-- One turn of skipping to the next token: a blank. -/
theorem skipToToken_blank (hi : s.indents = []) (hc : isBlank c = true) :
    skipToToken (s.moved (c :: cs) mark lb) =
      skipToToken (s.moved cs ⟨mark.index + 1, mark.line, mark.column + 1⟩ lb) := by
  have hi' : (s.moved (c :: cs) mark lb).indents.isEmpty = true := by
    rw [ScanState.moved, hi]
    rfl
  unfold skipToToken
  refine loop_of_more ?_ (Nat.lt_succ_self _)
  rw [peek_moved, get_bind, next_cons, hi']
  simp only [Bool.not_true, Bool.and_false, Bool.false_and]
  rw [if_neg Bool.false_ne_true, if_pos hc]
  rfl

/-- One turn of skipping to the next token: a line break. -/
theorem skipToToken_break (hi : s.indents = []) (hc : isBreak c = true) {m : Mark}
    (hlen : tail.length ≤ cs.length)
    (h : skipBreak (s.moved (c :: cs) mark lb) = .ok ((), s.moved tail m true)) :
    skipToToken (s.moved (c :: cs) mark lb) = skipToToken (s.newLine.moved tail m true) := by
  have hi' : (s.moved (c :: cs) mark lb).indents.isEmpty = true := by
    rw [ScanState.moved, hi]
    rfl
  have hblank : isBlank c = false := by
    rcases Bool.or_eq_true_iff.mp hc with h | h <;> rw [eq_of_beq h] <;> rfl
  unfold skipToToken
  refine loop_of_more ?_ (Nat.lt_succ_of_le hlen)
  rw [peek_moved, get_bind, next_cons, hi']
  simp only [Bool.not_true, Bool.and_false, Bool.false_and]
  rw [if_neg Bool.false_ne_true, if_neg (Bool.eq_false_iff.mp hblank), if_pos hc, bind_of_ok h,
    bind_of_ok allowKeyInBlock_moved]
  rfl

theorem skipToToken_done (hi : s.indents = []) (ht : AtToken cs) :
    skipToToken (s.moved cs mark lb) = .ok ((), s.moved cs mark lb) := by
  have hi' : (s.moved cs mark lb).indents.isEmpty = true := by
    rw [ScanState.moved, hi]
    rfl
  have hcomment : (next cs == '#') = false := beq_eq_false_iff_ne.mpr ht.comment
  unfold skipToToken
  refine loop_of_done ?_
  rw [peek_moved, get_bind, hi']
  simp only [Bool.not_true, Bool.and_false, Bool.false_and]
  rw [if_neg Bool.false_ne_true, if_neg (Bool.eq_false_iff.mp ht.not_blank),
    if_neg (Bool.eq_false_iff.mp ht.not_break), if_neg (Bool.eq_false_iff.mp hcomment)]
  rfl

/-- What skipping layout makes of the state: it is read past, and on a new line a key may begin
where no flow collection is open. -/
def Skips (s s' : ScanState) (rest : List Char) : Prop :=
  ∃ mark lb, s' = s.moved rest mark lb ∨ s' = s.newLine.moved rest mark lb

theorem Skips.of_newLine {s' : ScanState} (h : Skips s.newLine s' tail) : Skips s s' tail := by
  obtain ⟨m, lb, rfl | rfl⟩ := h
  · exact ⟨m, lb, Or.inr rfl⟩
  · exact ⟨m, lb, Or.inr (by rw [ScanState.newLine_newLine])⟩

theorem Skips.keys {s' : ScanState} (h : Skips s s' tail) : s'.keys = s.keys := by
  obtain ⟨m, lb, rfl | rfl⟩ := h
  · rfl
  · exact s.newLine_keys

/-- Layout in front of a token is skipped. -/
theorem skipToToken_layout (ht : AtToken tail) (ws : List Char) (s : ScanState) (mark : Mark)
    (lb : Bool) (hw : ∀ c ∈ ws, isLayout c = true) (hi : s.indents = []) :
    ∃ s', skipToToken (s.moved (ws ++ tail) mark lb) = .ok ((), s') ∧ Skips s s' tail := by
  match ws with
  | [] => exact ⟨_, skipToToken_done hi ht, mark, lb, Or.inl rfl⟩
  | c :: ws =>
    have hrest : ∀ d ∈ ws, isLayout d = true := fun d hd => hw d (List.mem_cons_of_mem _ hd)
    rcases Bool.or_eq_true_iff.mp (hw c List.mem_cons_self) with hc | hc
    · obtain ⟨s', h, hs⟩ := skipToToken_layout ht ws s _ _ hrest hi
      exact ⟨s', (skipToToken_blank hi hc).trans h, hs⟩
    · have hi' : s.newLine.indents = [] := s.newLine_indents.trans hi
      obtain ⟨ws', m, hws, hbreak⟩ := exists_skipBreak s ws mark lb hc ht
      have hws' : (∀ d ∈ ws', isLayout d = true) ∧ ws'.length ≤ ws.length := by
        rcases hws with rfl | rfl
        · exact ⟨hrest, Nat.le_refl _⟩
        · exact ⟨fun d hd => hrest d (List.mem_cons_of_mem _ hd), Nat.le_succ _⟩
      obtain ⟨s', h, hs⟩ := skipToToken_layout ht ws' s.newLine _ _ hws'.1 hi'
      have hlen : (ws' ++ tail).length ≤ (ws ++ tail).length := by
        simpa using hws'.2
      exact ⟨s', (skipToToken_break hi hc hlen hbreak).trans h, hs.of_newLine⟩
termination_by ws.length
decreasing_by
  · exact Nat.lt_succ_self _
  · exact Nat.lt_succ_of_le hws'.2

/-! ### Skipping to the end of the line -/

/-- Blanks are skipped, and it is remembered if there is a space among them. -/
theorem skipToLineEnd_blanks (hblank : isBlank (next tail) = false) (hcomment : next tail ≠ '#')
    (s : ScanState) (bs : List Char) (hb : ∀ c ∈ bs, isBlank c = true) (mark : Mark)
    (lb : Bool) :
    ∃ skipped m, skipToLineEnd true (s.moved (bs ++ tail) mark lb) =
        .ok (skipped, s.moved tail m lb) ∧ skipped.spaces = bs.any (· == ' ') := by
  unfold skipToLineEnd
  suffices h : ∀ skipped : Skipped, ∃ (skipped' : Skipped) (m : Mark),
      loop _ skipped (s.moved (bs ++ tail) mark lb) = .ok (skipped', s.moved tail m lb) ∧
        skipped'.spaces = (skipped.spaces || bs.any (· == ' ')) from h ⟨false, false⟩
  intro skipped
  induction bs generalizing mark skipped with
  | nil =>
    have hspace : (next tail == ' ') = false := (Bool.or_eq_false_iff.mp hblank).1
    have htab : (next tail == '\t') = false := (Bool.or_eq_false_iff.mp hblank).2
    have hhash : (next tail == '#') = false := beq_eq_false_iff_ne.mpr hcomment
    refine ⟨skipped, mark, loop_of_done ?_, (Bool.or_false _).symm⟩
    rw [List.nil_append, peek_moved]
    simp only [hspace, htab, hhash, Bool.false_and, Bool.false_eq_true, if_false]
    rfl
  | cons c bs ih =>
    have hrest : ∀ c ∈ bs, isBlank c = true := fun d hd => hb d (List.mem_cons_of_mem _ hd)
    rcases Bool.or_eq_true_iff.mp (hb c List.mem_cons_self) with hc | hc
    · rw [eq_of_beq hc]
      obtain ⟨skipped', m, h, hs⟩ := ih hrest ⟨mark.index + 1, mark.line, mark.column + 1⟩
        { skipped with spaces := true }
      refine ⟨skipped', m, (loop_of_more ?_ (Nat.lt_succ_self _)).trans h, ?_⟩
      · rw [List.cons_append, peek_moved]
        rfl
      · rw [hs, Bool.true_or]
        exact (Bool.or_true _).symm
    · rw [eq_of_beq hc]
      obtain ⟨skipped', m, h, hs⟩ := ih hrest ⟨mark.index + 1, mark.line, mark.column + 1⟩
        { skipped with tabs := true }
      refine ⟨skipped', m, (loop_of_more ?_ (Nat.lt_succ_self _)).trans h, ?_⟩
      · rw [List.cons_append, peek_moved]
        rfl
      · exact hs

/-- Of layout, the blanks up to the first line break are skipped. Unless there is a space among
them, these are tabs. -/
theorem skipToLineEnd_layout (ht : AtToken tail) (hw : ∀ c ∈ ws, isLayout c = true)
    (hr : s.rest = ws ++ tail) (hl : s.left = s.rest.length) :
    ∃ skipped ws' m, skipToLineEnd true s = .ok (skipped, s.moved (ws' ++ tail) m s.lineIsBlank) ∧
      (∀ c ∈ ws', isLayout c = true) ∧ (ws' ≠ [] → isBreak (next (ws' ++ tail)) = true) ∧
      (skipped.spaces = false → ws' = [] → ∀ c ∈ ws, c = '\t') := by
  have hsplit : ws = ws.takeWhile isBlank ++ ws.dropWhile isBlank :=
    List.takeWhile_append_dropWhile.symm
  have hdrop : ∀ c ∈ ws.dropWhile isBlank, isLayout c = true := fun c hc =>
    hw c ((List.dropWhile_sublist _).mem hc)
  have hbreak : ws.dropWhile isBlank ≠ [] →
      isBreak (next (ws.dropWhile isBlank ++ tail)) = true := by
    intro hne
    obtain ⟨c, cs, hcs⟩ := List.exists_cons_of_ne_nil hne
    have hnot : isBlank c = false := by
      have := List.head_dropWhile_not isBlank hne
      simpa [hcs] using this
    have hc := hdrop c (hcs ▸ List.mem_cons_self)
    rw [isLayout, hnot, Bool.false_or] at hc
    rw [hcs]
    exact hc
  have hblank : isBlank (next (ws.dropWhile isBlank ++ tail)) = false := by
    by_cases hne : ws.dropWhile isBlank = []
    · rw [hne]
      exact ht.not_blank
    · rcases Bool.or_eq_true_iff.mp (hbreak hne) with h | h <;> rw [eq_of_beq h] <;> rfl
  have hcomment : next (ws.dropWhile isBlank ++ tail) ≠ '#' := by
    by_cases hne : ws.dropWhile isBlank = []
    · rw [hne]
      exact ht.comment
    · rcases Bool.or_eq_true_iff.mp (hbreak hne) with h | h <;> rw [eq_of_beq h] <;> decide
  have hrest : s.rest = ws.takeWhile isBlank ++ (ws.dropWhile isBlank ++ tail) := by
    rw [← List.append_assoc, List.takeWhile_append_dropWhile, hr]
  obtain ⟨skipped, m, h, hs⟩ := skipToLineEnd_blanks hblank hcomment s (ws.takeWhile isBlank)
    (fun c hc => List.all_eq_true.mp List.all_takeWhile c hc) s.mark s.lineIsBlank
  refine ⟨skipped, ws.dropWhile isBlank, m, ?_, hdrop, hbreak, ?_⟩
  · rw [← h, ← ScanState.eq_moved hrest (hrest ▸ hl)]
  · intro hspaces hnil c hc
    rw [hs, List.any_eq_false] at hspaces
    have hmem : c ∈ ws.takeWhile isBlank := by
      rw [hsplit, hnil, List.append_nil] at hc
      exact hc
    rcases Bool.or_eq_true_iff.mp (List.all_eq_true.mp List.all_takeWhile c hmem) with h | h
    · exact absurd h (hspaces c hmem)
    · exact eq_of_beq h

end Scan
end Yaml
end TypedConfig
