/-
# Plain scalars as a whole

A text that begins with a character of a word and has no marks in it is one plain
scalar, up to the gap or the mark after it (`Scan.plain_at`). The numbers and the words
of JSON are such texts. The layout after a plain scalar belongs to it as long as
nothing tells that it does not go on.

Key definitions: `IsPlain`, `Scan.EndsPlain`.
Key theorems: `Scan.plainWord_marks`, `Scan.plainGap_layout`, `Scan.plainText_eq`,
`Scan.plain_at`.
-/
import TypedConfig.Proofs.Yaml.Flow

namespace TypedConfig
namespace Yaml

/-- Whether `c` belongs to a plain scalar wherever it stands. -/
def isPlainMark (c : Char) : Bool := c != ':' && !isGap c && !isFlow c

/-- A text that is a plain scalar as a whole: it begins with a character of a word, and after a
dash a digit. -/
structure IsPlain (text : List Char) : Prop where
  marks : ∀ c ∈ text, isPlainMark c = true
  start : isWordChar (Scan.next text) = true
  dash : Scan.next text = '-' → Text.isDigit (Scan.next text.tail) = true

namespace Scan

open ScanState

variable {s t : ScanState} {p : Progress} {cs ws tail w : List Char} {mark : Mark} {lb : Bool}
  {inFlow : Bool}

theorem plainChar_mark {c : Char} (hc : isPlainMark c = true) (d : Char) :
    plainChar inFlow c d = true := by
  simp only [isPlainMark, Bool.and_eq_true, bne_iff_ne, Bool.not_eq_true'] at hc
  obtain ⟨⟨hcolon, hgap⟩, hflow⟩ := hc
  rw [plainChar, if_neg (by rw [beq_iff_eq]; exact hcolon), hgap, hflow, Bool.and_false]
  rfl

theorem plainChar_layout {c d : Char} (hc : isLayout c = true) : plainChar inFlow c d = false := by
  have hne : (c == ':') = false := beq_eq_false_iff_ne.mpr fun he => absurd (he ▸ hc) (by decide)
  have hgap : isGap c = true := by
    rw [isGap, isLineEnd, ← Bool.or_assoc, ← isLayout, hc, Bool.true_or]
  rw [plainChar, hne, hgap]
  rfl

theorem isFlow_digit {c : Char} (hc : Text.isDigit c = true) : isFlow c = false := by
  have hne : ∀ d : Char, Text.isDigit d = false → (c == d) = false := fun d hd =>
    beq_eq_false_iff_ne.mpr fun he => Bool.false_ne_true (hd.symm.trans (he ▸ hc))
  rw [isFlow, hne _ rfl, hne _ rfl, hne _ rfl, hne _ rfl, hne _ rfl]
  rfl

theorem isGap_digit {c : Char} (hc : Text.isDigit c = true) : isGap c = false := by
  have hne : ∀ d : Char, Text.isDigit d = false → (c == d) = false := fun d hd =>
    beq_eq_false_iff_ne.mpr fun he => Bool.false_ne_true (hd.symm.trans (he ▸ hc))
  rw [isGap, isBlank, isLineEnd, isBreak, isEnd, hne _ rfl, hne _ rfl, hne _ rfl, hne _ rfl,
    hne _ rfl]
  rfl

/-- Characters of a plain scalar are read up to the first that cannot belong to one. -/
theorem plainWord_marks (hend : plainChar inFlow (next cs) (next cs.tail) = false) :
    ∀ (w text : List Char) (mark : Mark) (lb : Bool), (∀ c ∈ w, isPlainMark c = true) →
    ∃ m lb', plainWord inFlow text (s.moved (w ++ cs) mark lb) =
      .ok (w.reverse ++ text, s.moved cs m lb')
  | [], text, mark, lb, _ => by
    refine ⟨mark, lb, loop_of_done ?_⟩
    rw [List.nil_append, peek_moved, peekAt_bind]
    have hnext : (s.moved cs mark lb).rest[1]?.getD '\x00' = next cs.tail := by
      rw [next, List.head?_eq_getElem?, List.getElem?_tail]
      rfl
    rw [hnext, if_neg (Bool.eq_false_iff.mp hend)]
    rfl
  | c :: w, text, mark, lb, hw => by
    obtain ⟨m, lb', ih⟩ := plainWord_marks hend w (c :: text)
      ⟨mark.index + 1, mark.line, mark.column + 1⟩ false
      fun d hd => hw d (List.mem_cons_of_mem _ hd)
    refine ⟨m, lb', (loop_of_more ?_ (Nat.lt_succ_self _)).trans (ih.trans ?_)⟩
    · rw [List.cons_append, peek_moved, peekAt_one_moved, next_cons,
        if_pos (plainChar_mark (hw c List.mem_cons_self) _)]
      exact bind_of_ok skip_moved _
    · rw [List.reverse_cons, List.append_assoc, List.singleton_append]

/-- The layout after a word is read, whatever it stands for. -/
theorem plainGap_layout (s : ScanState) (mark : Mark) (lb : Bool) (ht : AtToken tail)
    {indent : Int} (hi : indent ≤ 0) (start : Mark) (hws : ∀ c ∈ ws, isLayout c = true) :
    ∃ gap m lb', plainGap start indent (s.moved (ws ++ tail) mark lb) =
      .ok (gap, s.moved tail m lb') := by
  unfold plainGap
  suffices h : ∀ (n : Nat) (ws : List Char) (gap : Gap) (mark : Mark) (lb : Bool), ws.length < n →
      (∀ c ∈ ws, isLayout c = true) →
      ∃ gap' m lb', loop _ gap (s.moved (ws ++ tail) mark lb) = .ok (gap', s.moved tail m lb') from
    h (ws.length + 1) ws _ mark lb (Nat.lt_succ_self _) hws
  intro n
  induction n with
  | zero => exact fun ws gap mark lb hlen => absurd hlen (Nat.not_lt_zero _)
  | succ n ih =>
    intro ws gap mark lb hlen hws
    cases ws with
    | nil =>
      refine ⟨gap, mark, lb, loop_of_done ?_⟩
      rw [List.nil_append, peek_moved, get_bind, if_neg (Bool.eq_false_iff.mp ht.not_blank),
        if_neg (Bool.eq_false_iff.mp ht.not_break)]
      rfl
    | cons c ws =>
      have hrest : ∀ d ∈ ws, isLayout d = true := fun d hd => hws d (List.mem_cons_of_mem _ hd)
      have hlen' : ws.length < n := Nat.lt_of_succ_lt_succ hlen
      have hcolumn : ¬(mark.column : Int) < indent := by omega
      rcases Bool.or_eq_true_iff.mp (hws c List.mem_cons_self) with hc | hc
      · -- a blank belongs to the gap, unless the line is blank
        obtain ⟨gap', m, lb', h⟩ := ih ws
          (if lb then gap else { gap with blanks := c :: gap.blanks })
          ⟨mark.index + 1, mark.line, mark.column + 1⟩ lb hlen' hrest
        refine ⟨gap', m, lb', (loop_of_more ?_ (Nat.lt_succ_self _)).trans h⟩
        rw [List.cons_append, peek_moved, get_bind, next_cons, if_pos hc]
        cases lb with
        | false => exact bind_of_ok skipBlank_moved _
        | true =>
          have htab : (c == '\t' && decide ((mark.column : Int) < indent)) = false := by
            rw [decide_eq_false hcolumn, Bool.and_false]
          exact (congrFun (if_neg (Bool.eq_false_iff.mp htab)) _).trans
            (bind_of_ok skipBlank_moved _)
      · -- a line break begins the next line of the gap
        have hblank : isBlank c = false := by
          rcases Bool.or_eq_true_iff.mp hc with h | h <;> rw [eq_of_beq h] <;> rfl
        obtain ⟨ws', m', hws', hbreak⟩ := exists_skipBreak s ws mark lb hc ht
        have hsub : ws'.length ≤ ws.length ∧ ∀ d ∈ ws', isLayout d = true := by
          rcases hws' with rfl | rfl
          · exact ⟨Nat.le_refl _, hrest⟩
          · exact ⟨Nat.le_succ _, fun d hd => hrest d (List.mem_cons_of_mem _ hd)⟩
        obtain ⟨gap', m, lb', h⟩ := ih ws'
          (if lb then { gap with breaks := '\n' :: gap.breaks }
            else { gap with newLine := true, folds := true })
          m' true (Nat.lt_of_le_of_lt hsub.1 hlen') hsub.2
        have hshort : (ws' ++ tail).length < ((c :: ws) ++ tail).length := by
          simp only [List.length_append, List.length_cons]
          omega
        refine ⟨gap', m, lb', (loop_of_more ?_ hshort).trans h⟩
        rw [List.cons_append, peek_moved, get_bind, next_cons,
          if_neg (Bool.eq_false_iff.mp hblank), if_pos hc, bind_of_ok hbreak]
        cases lb <;> rfl

/-- A plain scalar is complete where the text ends or a mark of the flow collection is next. -/
structure EndsPlain (level : Nat) (tail : List Char) : Prop where
  ends : EndsScalar level tail
  noColon : next tail ≠ ':'

theorem EndsPlain.plainChar {level : Nat} (h : EndsPlain level tail) (d : Char) :
    plainChar (decide (0 < level)) (next tail) d = false := by
  rw [Scan.plainChar, if_neg (by rw [beq_iff_eq]; exact h.noColon)]
  obtain he | ⟨hl, he | he | he | he⟩ := h.ends
  · rw [isGap, isLineEnd, he, Bool.or_true, Bool.or_true]
    rfl
  · rw [he, decide_eq_true hl]
    rfl
  · rw [he, decide_eq_true hl]
    rfl
  · rw [he, decide_eq_true hl]
    rfl
  · exact absurd he h.noColon

/-- In front of the end of a plain scalar stands no document indicator. -/
theorem EndsPlain.ne {level : Nat} (h : EndsPlain level tail) {d : Char}
    (hd : isEnd d = false ∧ isFlow d = false) : next tail ≠ d := by
  rintro rfl
  obtain he | ⟨-, he | he | he | he⟩ := h.ends
  · exact Bool.false_ne_true (hd.1.symm.trans he)
  · exact absurd hd.2 (by rw [he]; decide)
  · exact absurd hd.2 (by rw [he]; decide)
  · exact absurd hd.2 (by rw [he]; decide)
  · exact h.noColon he

theorem atDocumentIndicator_false (hdash : next s.rest = '-' → next s.rest.tail ≠ '-')
    (hdot : next s.rest ≠ '.') : atDocumentIndicator s = .ok (false, s) := by
  have h : atIndicator '-' s = .ok (false, s) := atIndicator_false hdash
  have h' : atIndicator '.' s = .ok (false, s) := atIndicator_false fun he => absurd he hdot
  unfold atDocumentIndicator
  rw [bind_of_ok h, bind_of_ok h']
  rfl

/-- A plain scalar is read as it is written, with the layout after it. -/
theorem plainText_eq (s : ScanState) (mark : Mark) (lb : Bool) (hw : IsPlain w)
    (hws : ∀ c ∈ ws, isLayout c = true) (hend : EndsPlain s.flowLevel tail) (start : Mark) :
    ∃ m lb', plainText start 0 (s.moved (w ++ (ws ++ tail)) mark lb) =
      .ok (w, s.moved tail m lb') := by
  have ht := hend.ends.atToken
  obtain ⟨c, w, rfl⟩ : ∃ c w', w = c :: w' := by
    cases w with
    | nil => exact absurd hw.start (by decide)
    | cons c w => exact ⟨c, w, rfl⟩
  have hstart : ∀ d : Char, isWordChar d = false → (c == d) = false := fun d hd =>
    beq_eq_false_iff_ne.mpr fun he => Bool.false_ne_true (hd.symm.trans (he ▸ hw.start))
  have hnext : c = '-' → Text.isDigit (next (w ++ (ws ++ tail))) = true := fun hc => by
    have hdigit := hw.dash hc
    cases w with
    | nil =>
      have hnull : Text.isDigit '\x00' = true := hdigit
      exact absurd hnull (by decide)
    | cons d w => exact hdigit
  have hdoc : atDocumentIndicator (s.moved (c :: w ++ (ws ++ tail)) mark lb) =
      .ok (false, s.moved (c :: w ++ (ws ++ tail)) mark lb) := by
    refine atDocumentIndicator_false (fun hc hd => ?_) (beq_eq_false_iff_ne.mp (hstart '.' rfl))
    exact absurd ((hd : next (w ++ (ws ++ tail)) = '-') ▸ hnext hc) (by decide)
  have hdash : ¬(decide (0 < s.flowLevel) && c == '-' &&
      isFlow (next (w ++ (ws ++ tail)))) = true := by
    intro h
    rw [Bool.and_eq_true, Bool.and_eq_true, beq_iff_eq] at h
    exact Bool.false_ne_true ((isFlow_digit (hnext h.1.2)).symm.trans h.2)
  have hend' : plainChar (decide (0 < s.flowLevel)) (next (ws ++ tail)) (next (ws ++ tail).tail) =
      false := by
    cases ws with
    | nil => exact hend.plainChar _
    | cons d ws => exact plainChar_layout (hws d List.mem_cons_self)
  obtain ⟨m, lb', hword⟩ := plainWord_marks (s := s) hend' (c :: w) [] mark lb hw.marks
  rw [List.append_nil] at hword
  unfold plainText
  rw [get_bind]
  suffices h : ∃ (gap : Gap) (m : Mark) (lb' : Bool),
      loop _ ([], ⟨false, false, [], []⟩) (s.moved (c :: w ++ (ws ++ tail)) mark lb) =
        .ok (((c :: w).reverse, gap), s.moved tail m lb') by
    obtain ⟨gap, m, lb', hrun⟩ := h
    refine ⟨m, lb', (bind_of_ok hrun _).trans ?_⟩
    change Except.ok ((c :: w).reverse.reverse, _) = _
    rw [List.reverse_reverse]
  by_cases hnil : ws = []
  · subst hnil
    refine ⟨⟨false, false, [], []⟩, m, lb', loop_of_done ?_⟩
    rw [List.cons_append, peek_moved, peekAt_one_moved, next_cons]
    refine (bind_of_ok hdoc _).trans ?_
    rw [hstart '#' rfl, Bool.or_false, if_neg Bool.false_ne_true]
    refine (congrFun (if_neg hdash) _).trans ?_
    refine (congrFun (if_pos (plainChar_mark (hw.marks c List.mem_cons_self) _)) _).trans ?_
    refine (bind_of_ok hword _).trans ((peek_moved _).trans ?_)
    rw [List.nil_append, ht.not_blank, ht.not_break]
    rfl
  · obtain ⟨d, ws, rfl⟩ := List.exists_cons_of_ne_nil hnil
    obtain ⟨gap, m', lb'', hgap⟩ := plainGap_layout s m lb' ht (Int.le_refl 0) start hws
    have hlayout : (isBlank d || isBreak d) = true := hws d List.mem_cons_self
    refine ⟨gap, m', lb'', loop_of_settled ?_ ?_ ?_⟩
    · rw [List.cons_append, peek_moved, peekAt_one_moved, next_cons]
      refine (bind_of_ok hdoc _).trans ?_
      rw [hstart '#' rfl, Bool.or_false, if_neg Bool.false_ne_true]
      refine (congrFun (if_neg hdash) _).trans ?_
      refine (congrFun (if_pos (plainChar_mark (hw.marks c List.mem_cons_self) _)) _).trans ?_
      refine (bind_of_ok hword _).trans ((peek_moved _).trans ?_)
      refine (congrFun (if_pos hlayout) _).trans ((bind_of_ok hgap _).trans ?_)
      rw [get_bind, decide_eq_true (Int.natCast_nonneg _), Bool.or_true]
      rfl
    · change tail.length < (c :: w ++ (d :: ws ++ tail)).length
      simp only [List.length_append, List.length_cons]
      omega
    · -- in front of what ends the scalar, nothing more is read
      have hne : ∀ d : Char, isEnd d = false ∧ isFlow d = false → (next tail == d) = false :=
        fun d hd => beq_eq_false_iff_ne.mpr (hend.ne hd)
      have hdoc' : atDocumentIndicator (s.moved tail m' lb'') =
          .ok (false, s.moved tail m' lb'') :=
        atDocumentIndicator_false (fun h => absurd h (hend.ne ⟨rfl, rfl⟩)) (hend.ne ⟨rfl, rfl⟩)
      have hdash' : ¬(decide (0 < s.flowLevel) && next tail == '-' &&
          isFlow ((s.moved tail m' lb'').rest[1]?.getD '\x00')) = true := by
        rw [hne '-' ⟨rfl, rfl⟩, Bool.and_false, Bool.false_and]
        exact Bool.false_ne_true
      have hchar := Bool.eq_false_iff.mp
        (hend.plainChar ((s.moved tail m' lb'').rest[1]?.getD '\x00'))
      rw [peek_moved, peekAt_bind]
      refine (bind_of_ok hdoc' _).trans ?_
      rw [hne '#' ⟨rfl, rfl⟩, Bool.or_false, if_neg Bool.false_ne_true]
      refine (congrFun (if_neg hdash') _).trans ((congrFun (if_neg hchar) _).trans ?_)
      refine (pure_bind_apply _ _ _).trans ((peek_moved _).trans ?_)
      rw [ht.not_blank, ht.not_break]
      rfl

theorem plain_at (h : s.At p (w ++ (ws ++ tail))) (hw : IsPlain w)
    (hws : ∀ c ∈ ws, isLayout c = true) (hend : EndsPlain p.level tail) :
    ∃ t, plain s = .ok ((), t) ∧
      t.At (Progress.found { p with allowed := false } (.scalar .plain (.ofList w))) tail := by
  obtain ⟨s₁, h₁, hs₁, -⟩ := saveKey_at h
  obtain ⟨s₂, h₂, hs₂, -⟩ := setKeyAllowed_at hs₁ false
  have h₃ : dropHanging s₂ = .ok ((), s₂) := by
    rw [dropHanging, update_apply, hs₂.indents, unrollHanging]
    rw [← hs₂.indents]
  have hlevel : p.level = s₂.flowLevel := hs₂.level.symm
  obtain ⟨m, lb, h₄⟩ := plainText_eq s₂ s₂.mark s₂.lineIsBlank hw hws (hlevel ▸ hend) s₂.mark
  rw [← hs₂.eq_moved] at h₄
  have hindent : s₂.indent + 1 = 0 := by
    rw [hs₂.indent]
    rfl
  have hcolumn : ¬(decide (0 < s₂.flowLevel) && decide ((s₂.mark.column : Int) < 0)) = true := by
    rw [decide_eq_false (Int.not_lt.mpr (Int.natCast_nonneg _)), Bool.and_false]
    exact Bool.false_ne_true
  have hs₄ := hs₂.moved tail m lb
  let s₅ := if lb = true then { s₂.moved tail m lb with keyAllowed := true } else s₂.moved tail m lb
  have hs₅ : s₅.At { p with allowed := false } tail := by
    change (if _ then _ else _ : ScanState).At _ _
    split
    · exact { hs₄ with allowed := fun _ => rfl }
    · exact hs₄
  obtain ⟨s₆, h₆, hs₆, -⟩ := emit_at hs₅ s₂.mark (.scalar .plain (.ofList w))
  refine ⟨s₆, ?_, hs₆⟩
  rw [plain, bind_of_ok h₁, bind_of_ok h₂, bind_of_ok h₃, get_bind, hindent]
  refine (congrFun (if_neg hcolumn) _).trans ((bind_of_ok h₄ _).trans ?_)
  rw [get_bind]
  exact (ite_update_bind _ _ _ _).trans h₆

end Scan
end Yaml
end TypedConfig
