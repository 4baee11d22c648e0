/-
# The tokens of flow collections

Brackets, braces, commas, quoted strings and colons are read as what they are in
JSON, whatever layout is around them. A colon makes a key of the string in front of
it, as the scanner remembers where that began (`Scan.AfterKey`); one thing it does
not take is a colon with nothing but tabs between it and a number or a word
(`Scan.IsWideGap`).

Key definitions: `Scan.structureTokens`, `Scan.EndsScalar`, `Scan.AfterKey`,
`Scan.IsWideGap`.
Key theorems: `Scan.flowStart_at`, `Scan.flowEnd_at`, `Scan.flowEntry_at`,
`Scan.quoted_at`, `Scan.mappingValue_at`.
-/
import TypedConfig.Proofs.Yaml.Progress

namespace TypedConfig
namespace Yaml
namespace Scan

open ScanState

variable {s t : ScanState} {p : Progress} {c : Char} {cs ws tail : List Char}

/-! ### Which token is next -/

/-- The characters that begin a token by themselves, and how the token is read. -/
def structureTokens : List (Char × Scan Unit) :=
  [('[', flowStart .flowSequenceStart), ('\x7b', flowStart .flowMappingStart),
   (']', flowEnd .flowSequenceEnd), ('\x7d', flowEnd .flowMappingEnd), (',', flowEntry),
   ('"', quoted false)]

theorem contentToken_structure {x : Scan Unit} (h : s.At p (c :: cs))
    (hc : (c, x) ∈ structureTokens) : contentToken s = x s := by
  have hcolumn : ¬(s.mark.column : Int) < s.indent := by
    rw [h.indent]
    omega
  have hpeek : ∀ k : Char → Scan Unit, (peek >>= k) s = k c s := fun k =>
    (peek_bind k s).trans (by rw [h.rest]; rfl)
  unfold contentToken
  rw [get_bind, hpeek, peekAt_bind, if_neg hcolumn]
  simp only [structureTokens, List.mem_cons, Prod.mk.injEq, List.not_mem_nil, or_false] at hc
  obtain ⟨rfl, rfl⟩ | ⟨rfl, rfl⟩ | ⟨rfl, rfl⟩ | ⟨rfl, rfl⟩ | ⟨rfl, rfl⟩ | ⟨rfl, rfl⟩ := hc <;> rfl

theorem contentToken_plain (h : s.At p (c :: cs)) (hc : isWordChar c = true)
    (hdash : c = '-' → isGap (next cs) = false) : contentToken s = plain s := by
  have hcolumn : ¬(s.mark.column : Int) < s.indent := by
    rw [h.indent]
    omega
  have hpeek : ∀ k : Char → Scan Unit, (peek >>= k) s = k c s := fun k =>
    (peek_bind k s).trans (by rw [h.rest]; rfl)
  have hnext : s.rest[1]?.getD '\x00' = next cs := by
    rw [h.rest, next, List.head?_eq_getElem?]
    rfl
  have hne : ∀ d : Char, isWordChar d = false → (c == d) = false := fun d hd =>
    beq_eq_false_iff_ne.mpr fun he => Bool.false_ne_true (hd.symm.trans (he ▸ hc))
  have hquote : decide (c.toNat = 0x60) = false := decide_eq_false fun he =>
    beq_eq_false_iff_ne.mp (hne '\x60' rfl) (Char.toNat_inj.mp he)
  have hentry : (c == '-' && isGap (next cs)) = false := by
    rw [Bool.and_eq_false_iff, beq_eq_false_iff_ne, ← Bool.not_eq_true]
    exact Decidable.not_or_of_imp fun he => Bool.eq_false_iff.mp (hdash he)
  unfold contentToken
  rw [get_bind, hpeek, peekAt_bind, if_neg hcolumn, hnext, hentry]
  simp only [hne '[' rfl, hne '\x7b' rfl, hne ']' rfl, hne '\x7d' rfl, hne ',' rfl, hne '?' rfl,
    hne ':' rfl, hne '*' rfl, hne '&' rfl, hne '!' rfl, hne '|' rfl, hne '>' rfl, hne '\'' rfl,
    hne '"' rfl, hne '%' rfl, hne '@' rfl, hquote, Bool.false_and,
    Bool.false_eq_true, if_false, Bool.false_or]

/-! ### Flow collections -/

theorem flowStart_at {kind : TokenKind} (h : s.At p (c :: (ws ++ tail)))
    (hws : ∀ c ∈ ws, isLayout c = true) (ht : AtToken tail) (hlevel : p.level < flowLimit) :
    ∃ t, flowStart kind s = .ok ((), t) ∧
      t.Before (Progress.found
        { p with
          level := p.level + 1
          mapping := p.mapping || kind = .flowMappingStart
          allowed := true } kind) tail := by
  obtain ⟨s₁, h₁, hs₁, -⟩ := saveKey_at h
  obtain ⟨s₂, h₂, hs₂⟩ := enterFlow_at hs₁ hlevel
  obtain ⟨s₃, h₃, hs₃, -⟩ := setKeyAllowed_at hs₂ true
  obtain ⟨s₄, h₄, hs₄⟩ := skip_at hs₃
  let s₅ := if kind = .flowMappingStart then { s₄ with flowMappingStarted := true } else s₄
  have hs₅ : s₅.At { p with
      level := p.level + 1
      mapping := p.mapping || kind = .flowMappingStart
      allowed := true } (ws ++ tail) := by
    change (if _ then _ else _ : ScanState).At _ _
    by_cases hkind : kind = .flowMappingStart
    · rw [if_pos hkind]
      exact { hs₄ with mapping := fun _ => rfl }
    · rw [if_neg hkind, decide_eq_false hkind, Bool.or_false]
      exact hs₄
  obtain ⟨skipped, s₆, h₆, hs₆⟩ := skipToLineEnd_before ⟨ws, hws, hs₅⟩ ht
  obtain ⟨s₇, h₇, hs₇⟩ := emit_before hs₆ s₃.mark kind
  refine ⟨s₇, ?_, hs₇⟩
  rw [flowStart, bind_of_ok h₁, bind_of_ok (hangIndent_at hs₁), bind_of_ok h₂, bind_of_ok h₃,
    here_bind, bind_of_ok h₄]
  refine (ite_update_bind _ _ _ s₄).trans ?_
  exact (bind_of_ok h₆ _).trans h₇

theorem flowEnd_at {kind : TokenKind} (h : s.At p (c :: (ws ++ tail)))
    (hws : ∀ c ∈ ws, isLayout c = true) (ht : AtToken tail) (hlevel : 0 < p.level) :
    ∃ t, flowEnd kind s = .ok ((), t) ∧
      t.Before (Progress.found { p with level := p.level - 1, allowed := false } kind) tail := by
  obtain ⟨s₁, h₁, hs₁, -⟩ := removeKey_at h
  obtain ⟨s₂, h₂, hs₂⟩ := leaveFlow_at hs₁ hlevel
  obtain ⟨s₃, h₃, hs₃, -⟩ := setKeyAllowed_at hs₂ false
  obtain ⟨s₄, h₄, hs₄⟩ := skip_at hs₃
  obtain ⟨skipped, s₅, h₅, ws', hws', hs₅⟩ := skipToLineEnd_before ⟨ws, hws, hs₄⟩ ht
  let s₆ := if 0 < s₅.flowLevel then { s₅ with adjacentValueAt := s₅.mark.index } else s₅
  have hs₆ : s₆.At { p with level := p.level - 1, allowed := false } (ws' ++ tail) := by
    change (if _ then _ else _ : ScanState).At _ _
    split
    · exact { hs₅ with }
    · exact hs₅
  obtain ⟨s₇, h₇, hs₇⟩ := emit_before ⟨ws', hws', hs₆⟩ s₃.mark kind
  refine ⟨s₇, ?_, hs₇⟩
  rw [flowEnd, bind_of_ok h₁, bind_of_ok h₂, bind_of_ok h₃, here_bind,
    bind_of_ok (endPair_at hs₃ _), bind_of_ok h₄, bind_of_ok h₅]
  exact h₇

theorem flowEntry_at (h : s.At p (c :: (ws ++ tail))) (hws : ∀ c ∈ ws, isLayout c = true)
    (ht : AtToken tail) :
    ∃ t, flowEntry s = .ok ((), t) ∧
      t.Before (Progress.found { p with allowed := true } .flowEntry) tail := by
  obtain ⟨s₁, h₁, hs₁, -⟩ := removeKey_at h
  obtain ⟨s₂, h₂, hs₂, -⟩ := setKeyAllowed_at hs₁ true
  obtain ⟨s₃, h₃, hs₃⟩ := skip_at hs₂
  obtain ⟨skipped, s₄, h₄, hs₄⟩ := skipToLineEnd_before ⟨ws, hws, hs₃⟩ ht
  obtain ⟨s₅, h₅, hs₅⟩ := emit_before hs₄ s₂.mark .flowEntry
  refine ⟨s₅, ?_, hs₅⟩
  rw [flowEntry, bind_of_ok h₁, bind_of_ok h₂, here_bind, bind_of_ok (endPair_at hs₂ _),
    bind_of_ok h₃, bind_of_ok h₄]
  exact h₅

/-! ### Scalars -/

/-- A scalar that stands before `tail` is complete there: the text ends, or the next character
is a mark of a flow collection, or a colon in one. -/
def EndsScalar (level : Nat) (tail : List Char) : Prop :=
  isEnd (next tail) = true ∨
    0 < level ∧ (next tail = ',' ∨ next tail = ']' ∨ next tail = '\x7d' ∨ next tail = ':')

theorem EndsScalar.atToken {level : Nat} (h : EndsScalar level tail) : AtToken tail := by
  obtain h | ⟨-, h | h | h | h⟩ := h
  · rw [isEnd, beq_iff_eq] at h
    exact ⟨by rw [h]; rfl, by rw [h]; decide⟩
  all_goals exact ⟨by rw [h]; rfl, by rw [h]; decide⟩

/-- A colon that is next makes a key of the token found last. -/
structure AfterKey (s : ScanState) : Prop where
  adjacent : s.adjacentValueAt = s.mark.index
  key : ∃ key keys, s.keys = key :: keys ∧ key.possible = true ∧ s.count = key.token + 1

/-- Layout after a quoted scalar in front of what ends it is passed over. -/
theorem EndsScalar.next_append {level : Nat} (h : EndsScalar level tail)
    (hbreak : ws ≠ [] → isBreak (next (ws ++ tail)) = true) (sameLine : Bool) :
    (isLineEnd (next (ws ++ tail)) ||
      next (ws ++ tail) == ':' && (decide (0 < level) || sameLine) ||
      decide (0 < level) && (next (ws ++ tail) == ',' || next (ws ++ tail) == ']' ||
        next (ws ++ tail) == '\x7d')) = true := by
  by_cases hne : ws = []
  · rw [hne, List.nil_append]
    obtain h | ⟨hl, h | h | h | h⟩ := h
    · rw [isLineEnd, h, Bool.or_true]
      rfl
    all_goals rw [h, decide_eq_true hl]; rfl
  · rw [isLineEnd, hbreak hne]
    rfl

theorem quoted_at {pieces : List Json.StringPiece}
    (h : s.At p (Json.stringSpelling pieces ++ (ws ++ tail)))
    (hp : ∀ piece ∈ pieces, piece.isSurrogates = false) (hws : ∀ c ∈ ws, isLayout c = true)
    (hend : EndsScalar p.level tail) :
    ∃ t, quoted false s = .ok ((), t) ∧
      t.At (Progress.found { p with allowed := false }
        (.scalar .doubleQuoted (Json.stringMeaning pieces))) tail ∧
      (s.keyAllowed = true → AfterKey t) := by
  have ht := hend.atToken
  rw [Json.stringSpelling, List.cons_append, List.cons_append, List.append_assoc,
    List.singleton_append] at h
  obtain ⟨s₁, h₁, hs₁, hkey⟩ := saveKey_at h
  obtain ⟨s₂, h₂, hs₂, hkeys₂⟩ := setKeyAllowed_at hs₁ false
  have hindent : s₂.indent < 0 := by
    rw [hs₂.indent]
    decide
  have h₃ := skip_eq hs₂
  obtain ⟨m₄, lb, h₄⟩ := quotedText_pieces s₂ (ws ++ tail)
    ⟨s₂.mark.index + 1, s₂.mark.line, s₂.mark.column + 1⟩ false hindent s₂.mark pieces hp
    (Nat.succ_pos _)
  let s₅ := s₂.moved (ws ++ tail) ⟨m₄.index + 1, m₄.line, m₄.column + 1⟩ false
  obtain ⟨skipped, ws', m₆, h₆, hws', hbreak, -⟩ :=
    skipToLineEnd_layout (s := s₅) ht hws rfl rfl
  let s₆ := s₂.moved (ws' ++ tail) m₆ false
  change skipToLineEnd true s₅ = .ok (skipped, s₆) at h₆
  have hs₆ : s₆.At { p with allowed := false } (ws' ++ tail) := hs₂.moved _ _ _
  obtain ⟨s₇, h₇, hs₇, hkeys₇⟩ := skipToToken_before ⟨ws', hws', hs₆⟩ ht
  have hs₈ : ({ s₇ with adjacentValueAt := s₇.mark.index } : ScanState).At
    { p with allowed := false } tail := { hs₇ with }
  obtain ⟨s₉, h₉, hs₉, hkeys₉⟩ := emit_at hs₈ s₂.mark
    (.scalar .doubleQuoted (Json.stringMeaning pieces))
  refine ⟨s₉, ?_, hs₉, fun hallowed => ⟨?_, ?_⟩⟩
  · rw [quoted, bind_of_ok h₁, bind_of_ok h₂, here_bind, bind_of_ok h₃, bind_of_ok h₄]
    refine (bind_of_ok skip_moved _).trans ?_
    have hcond := hend.next_append hbreak (s₂.mark.line == s₆.mark.line)
    rw [show p.level = s₆.flowLevel from hs₆.level.symm] at hcond
    refine (bind_of_ok h₆ _).trans ((peek_moved _).trans ?_)
    rw [get_bind]
    exact (congrFun (if_pos hcond) _).trans ((bind_of_ok h₇ _).trans h₉)
  · rw [emit, update_apply] at h₉
    cases h₉
    rfl
  · have hkeys : s₉.keys = ⟨true, false, s.count, s.mark⟩ :: s.keys.tail :=
      hkeys₉.trans (hkeys₇.trans (hkeys₂.trans (hkey hallowed)))
    refine ⟨_, _, hkeys, rfl, ?_⟩
    rw [hs₉.count_eq, h.count_eq]
    exact List.length_append

/-! ### Values -/

/-- The key in front of the token found last is told by the colon after it. -/
theorem valueOfKey_at {kinds : List TokenKind} {kind : TokenKind} {key : SimpleKey}
    (h : s.At p cs) (hlevel : 0 < p.level) (hcount : s.count = key.token + 1)
    (hkinds : p.kinds = kinds ++ [kind]) (start : Mark) :
    ∃ t, valueOfKey key start false s = .ok ((), t) ∧
      t.At { p with kinds := kinds ++ [.key, kind], allowed := false } cs := by
  let s₁ : ScanState :=
    { s with
      tokens := s.tokens.insertIdx (s.count - key.token) ⟨key.mark, .key⟩
      count := s.count + 1 }
  have hs₁ : s₁.At { p with kinds := kinds ++ [.key, kind] } cs := by
    have htokens := h.kinds
    have hone : s.count - key.token = 1 := by omega
    cases hlist : s.tokens with
    | nil =>
      rw [hlist, hkinds] at htokens
      cases kinds <;> cases htokens
    | cons last tokens =>
      rw [hlist, hkinds, List.reverse_cons, List.map_append] at htokens
      obtain ⟨hinit, hlast⟩ := List.append_inj' htokens rfl
      have hinsert : s₁.tokens = last :: ⟨key.mark, .key⟩ :: tokens := by
        change s.tokens.insertIdx (s.count - key.token) _ = _
        rw [hone, hlist]
        rfl
      refine { h with count := ?_, kinds := ?_ }
      · rw [hinsert]
        change s.count + 1 = _
        rw [h.count, hlist]
        rfl
      · rw [hinsert, List.reverse_cons, List.reverse_cons, List.append_assoc, List.map_append,
          hinit]
        exact congrArg (fun k => kinds ++ [TokenKind.key, k]) (List.singleton_inj.mp hlast)
  have hroll : rollIndent key.mark.column (some key.token) start .blockMappingStart s₁ =
      .ok ((), s₁) := by
    have hflow : ¬s₁.flowLevel = 0 := by
      rw [hs₁.level]
      exact Nat.ne_of_gt hlevel
    rw [rollIndent, get_bind, if_neg hflow]
    rfl
  obtain ⟨s₂, h₂, hs₂, -⟩ := forgetKey_at hs₁
  obtain ⟨s₃, h₃, hs₃, -⟩ := setKeyAllowed_at hs₂ false
  refine ⟨s₃, ?_, hs₃⟩
  rw [valueOfKey, emitBefore, update_bind, if_neg Bool.false_ne_true]
  exact (bind_of_ok hroll _).trans ((bind_of_ok (hangIndent_at hs₁) _).trans
    ((bind_of_ok h₂ _).trans h₃))

/-- Between a colon and a number or a word stand no tabs alone. -/
def IsWideGap (ws tail : List Char) : Prop :=
  ws ≠ [] → (∀ c ∈ ws, c = '\t') → isWordChar (next tail) = false

theorem mappingValue_at {kinds : List TokenKind} {kind : TokenKind}
    (h : s.At p (':' :: (ws ++ tail))) (hlevel : 0 < p.level) (hmapping : p.mapping = true)
    (hkey : AfterKey s) (hkinds : p.kinds = kinds ++ [kind])
    (hws : ∀ c ∈ ws, isLayout c = true) (ht : AtToken tail) (hgap : IsWideGap ws tail) :
    ∃ t, mappingValue s = .ok ((), t) ∧
      t.Before { p with kinds := kinds ++ [.key, kind, .value], allowed := false } tail := by
  obtain ⟨key, keys, hkeys, hpossible, hcount⟩ := hkey.key
  have hpair : isPair s = false := by
    rw [isPair, h.mapping hmapping]
    exact Bool.and_false _
  let s₁ : ScanState := { s with pairOpen := isPair s }
  have hs₁ : s₁.At p (':' :: (ws ++ tail)) := { h with pairOpen := hpair }
  obtain ⟨s₂, h₂, hs₂⟩ := skip_at hs₁
  -- whatever layout is left, the key and the colon become tokens
  have hend : ∀ {u : ScanState}, u.Before p tail →
      ∃ t, (valueOfKey key s.mark false >>= fun _ => emit s.mark .value) u = .ok ((), t) ∧
        t.Before { p with kinds := kinds ++ [.key, kind, .value], allowed := false } tail := by
    rintro u ⟨ws', hws', hu⟩
    have hcount' : u.count = key.token + 1 := by rw [hu.count_eq, ← h.count_eq, hcount]
    obtain ⟨s₃, h₃, hs₃⟩ := valueOfKey_at hu hlevel hcount' hkinds s.mark
    obtain ⟨s₄, h₄, hs₄⟩ := emit_before ⟨ws', hws', hs₃⟩ s.mark .value
    refine ⟨s₄, (bind_of_ok h₃ _).trans h₄, ?_⟩
    have hfound : kinds ++ [.key, kind, .value] = kinds ++ [.key, kind] ++ [.value] := by
      rw [List.append_assoc]
      rfl
    rw [hfound]
    exact hs₄
  rw [mappingValue, get_bind, update_bind, bind_of_ok h₂, hkeys, hpair]
  dsimp only
  rw [if_pos hpossible, hs₂.eq_moved, peek_moved]
  by_cases htab : next (ws ++ tail) = '\t'
  · obtain ⟨skipped, ws', m, hskip, hws', hbreak, htabs⟩ := skipToLineEnd_layout ht hws
      (s := s₂.moved (ws ++ tail) s₂.mark s₂.lineIsBlank) rfl rfl
    have hfault : ¬(!skipped.spaces && isWordChar (next (ws' ++ tail))) = true := by
      intro hf
      rw [Bool.and_eq_true, Bool.not_eq_true'] at hf
      by_cases hnil : ws' = []
      · have hne : ws ≠ [] := by
          rintro rfl
          exact absurd ht.layout (by rw [show next tail = '\t' from htab]; decide)
        rw [hnil, List.nil_append, hgap hne (htabs hf.1 hnil)] at hf
        exact Bool.false_ne_true hf.2
      · have hword := hf.2
        rcases Bool.or_eq_true_iff.mp (hbreak hnil) with he | he
        · rw [eq_of_beq he] at hword
          exact absurd hword (by decide)
        · rw [eq_of_beq he] at hword
          exact absurd hword (by decide)
    obtain ⟨t, hrun, ht'⟩ := hend ⟨ws', hws', hs₂.moved (ws' ++ tail) m s₂.lineIsBlank⟩
    refine ⟨t, ?_, ht'⟩
    rw [if_pos (beq_iff_eq.mpr htab), bind_of_ok hskip]
    refine (peek_moved _).trans ?_
    exact (congrFun (if_neg hfault) _).trans hrun
  · obtain ⟨t, hrun, ht'⟩ := hend ⟨ws, hws, hs₂.moved (ws ++ tail) s₂.mark s₂.lineIsBlank⟩
    refine ⟨t, ?_, ht'⟩
    rw [if_neg (by rw [beq_iff_eq]; exact htab)]
    exact hrun

end Scan
end Yaml
end TypedConfig
