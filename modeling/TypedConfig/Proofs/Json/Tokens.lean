/-
# JSON token by token

The tokens of a value are said by recursion on it (`Syntax.tokens`). That the scanner
finds them is proved backwards: from a place in the text it finds all tokens if it
does so from behind the next one (`FinishesFrom`). A key and its colon are one step,
since the token of the key is known only with the colon.

Key definitions: `Syntax.tokens`, `FinishesFrom`.
Key theorems: `FinishesFrom.of_content`, `FinishesFrom.quoted`, `FinishesFrom.plain`,
`FinishesFrom.key`, `FinishesFrom.finish`.
-/
import TypedConfig.Proofs.Yaml.Plain
import TypedConfig.Proofs.Yaml.Tokenizer

namespace TypedConfig

namespace Json
namespace Syntax

open Yaml (TokenKind)

mutual

/-- The kinds of the tokens that a value is for the scanner of YAML. -/
def tokens : Syntax → List TokenKind
  | .null => [.scalar .plain "null"]
  | .boolean value => [.scalar .plain (if value then "true" else "false")]
  | .number numeral => [.scalar .plain (.ofList numeral.spelling)]
  | .string pieces => [.scalar .doubleQuoted (stringMeaning pieces)]
  | .array _ elements => .flowSequenceStart :: (elementsTokens true elements ++ [.flowSequenceEnd])
  | .object _ members => .flowMappingStart :: (membersTokens true members ++ [.flowMappingEnd])

def elementsTokens (first : Bool) : List (Padded Syntax) → List TokenKind
  | [] => []
  | ⟨_, element, _⟩ :: elements =>
    (if first then [] else [.flowEntry]) ++ (element.tokens ++ elementsTokens false elements)

def membersTokens (first : Bool) : List (Padded (Member Syntax)) → List TokenKind
  | [] => []
  | ⟨_, ⟨key, _, _, value⟩, _⟩ :: members =>
    (if first then [] else [.flowEntry]) ++
      (.key :: .scalar .doubleQuoted (stringMeaning key) :: .value ::
        (value.tokens ++ membersTokens false members))

end

end Syntax
end Json

namespace Yaml

open Scan ScanState Json

variable {s t u : ScanState} {p q : Progress} {cs ws tail : List Char} {kinds : List TokenKind}
  {m n fuel : Nat}

/-- From wherever the scanner has come so far before the text `cs`, it finds tokens of these
kinds. -/
def FinishesFrom (kinds : List TokenKind) (p : Progress) (cs : List Char) : Prop :=
  .streamEnd ∉ p.kinds → ∀ m s, s.Before { p with handedOut := m } cs →
    Finishes kinds (cs.length + 1) s

theorem At.head_ne (h : s.At p cs) (hopen : .streamEnd ∉ p.kinds) :
    s.tokens.head?.map (·.kind) ≠ some .streamEnd := by
  intro hlast
  refine hopen ?_
  rw [← h.kinds]
  obtain ⟨token, htoken, hkind⟩ := Option.map_eq_some_iff.mp hlast
  exact List.mem_map.mpr ⟨token, List.mem_reverse.mpr (List.mem_of_head? htoken), hkind⟩

theorem Finishes.of_next (h : s.At p cs) (hopen : .streamEnd ∉ p.kinds) (hn : m < n)
    (hnext : ∀ t, s.Alike t → t.At { p with handedOut := t.handedOut } cs →
      ∃ u, nextToken t = .ok ((), u) ∧ u.handedOut = t.handedOut ∧ t.count < u.count ∧
        Finishes kinds m u) : Finishes kinds n s := by
  refine .step hn (At.head_ne h hopen) h.notRequired (fun t ht => ?_) fun t u ht hu => ?_
  · obtain ⟨u, hu, hhanded, hlt, -⟩ := hnext t ht (ht.at h)
    exact ⟨u, hu, hhanded, hlt⟩
  · obtain ⟨u', hu', -, -, hfin⟩ := hnext t ht (ht.at h)
    rw [hu] at hu'
    cases hu'
    exact hfin

/-- A token that the next character begins is read. -/
theorem FinishesFrom.of_content (hc : AtContent cs) (hlen : tail.length < cs.length)
    (hkinds : p.kinds.length < q.kinds.length) (hopen : .streamEnd ∉ p.kinds → .streamEnd ∉ q.kinds)
    (hstep : ∀ m t, t.At { p with handedOut := m } cs →
      ∃ u, contentToken t = .ok ((), u) ∧ u.Before { q with handedOut := m } tail)
    (hrest : FinishesFrom kinds q tail) : FinishesFrom kinds p cs := by
  intro hp m s hs
  obtain ⟨ws, hws, hat⟩ := hs
  refine .of_next hat hp (Nat.succ_lt_succ hlen) fun t _ ht => ?_
  obtain ⟨t', hnext, ht'⟩ := nextToken_before ⟨ws, hws, ht⟩ hc
  obtain ⟨u, hu, hbefore⟩ := hstep t.handedOut t' ht'
  have hfin := hrest (hopen hp) t.handedOut u hbefore
  obtain ⟨ws', -, hu'⟩ := hbefore
  refine ⟨u, hnext.trans hu, hu'.handedOut, ?_, hfin⟩
  rw [ht.count_eq, hu'.count_eq]
  exact hkinds

/-- Another token is found that the next character begins. -/
theorem FinishesFrom.of_found {kind : TokenKind} (hc : AtContent cs)
    (hlen : tail.length < cs.length) (hq : q.kinds = p.kinds ++ [kind])
    (hkind : kind ≠ .streamEnd)
    (hstep : ∀ m t, t.At { p with handedOut := m } cs →
      ∃ u, contentToken t = .ok ((), u) ∧ u.Before { q with handedOut := m } tail)
    (hrest : FinishesFrom kinds q tail) : FinishesFrom kinds p cs := by
  refine .of_content hc hlen ?_ (fun hp => ?_) hstep hrest
  · rw [hq, List.length_append]
    exact Nat.lt_succ_self _
  · rw [hq, List.mem_append, List.mem_singleton]
    exact fun h => h.elim hp fun he => hkind he.symm

namespace Scan

theorem atContent_structure {c : Char} {x : Scan Unit} (hc : (c, x) ∈ structureTokens) :
    AtContent (c :: cs) := by
  have hmem : c ∈ ['[', '\x7b', ']', '\x7d', ',', '"'] := by
    simp only [structureTokens, List.mem_cons, Prod.mk.injEq, List.not_mem_nil, or_false] at hc ⊢
    obtain h | h | h | h | h | h := hc <;> simp only [h.1, true_or, or_true]
  have hfacts : ∀ c ∈ ['[', '\x7b', ']', '\x7d', ',', '"'], isLayout c = false ∧ c ≠ '#' ∧
      isEnd c = false ∧ c ≠ '%' ∧ c ≠ '.' ∧ c ≠ '-' := forall_mem_of_all (by decide)
  obtain ⟨hlayout, hcomment, hend, hdirective, hdot, hdash⟩ := hfacts c hmem
  exact ⟨⟨hlayout, hcomment⟩, hend, hdirective, hdot, fun h => absurd h hdash⟩

end Scan

namespace FinishesFrom

/-- Where no key has to be allowed, the scanner may be where one is. -/
theorem weaken (h : FinishesFrom kinds { p with allowed := false } cs) :
    FinishesFrom kinds p cs := by
  intro hopen m s hs
  obtain ⟨ws, hws, hat⟩ := hs
  exact h hopen m s ⟨ws, hws, { hat with allowed := fun h => absurd h Bool.false_ne_true }⟩

theorem of_mapping (h : FinishesFrom kinds p cs) :
    FinishesFrom kinds { p with mapping := true } cs := by
  intro hopen m s hs
  obtain ⟨ws, hws, hat⟩ := hs
  exact h hopen m s ⟨ws, hws, { hat with mapping := fun _ => hat.mapping rfl }⟩

theorem flowStart {c : Char} (kind : TokenKind)
    (hc : (c, Scan.flowStart kind) ∈ structureTokens) (hkind : kind ≠ .streamEnd)
    (hws : ∀ c ∈ ws, isLayout c = true) (ht : AtToken tail) (hlevel : p.level < flowLimit)
    (hrest : FinishesFrom kinds (Progress.found
      { p with
        level := p.level + 1
        mapping := p.mapping || kind = .flowMappingStart
        allowed := true } kind) tail) :
    FinishesFrom kinds p (c :: (ws ++ tail)) := by
  have hlen : tail.length < (c :: (ws ++ tail)).length := by
    rw [List.length_cons, List.length_append]
    omega
  refine .of_found (atContent_structure hc) hlen rfl hkind (fun m t ht' => ?_) hrest
  rw [contentToken_structure ht' hc]
  exact flowStart_at ht' hws ht hlevel

theorem flowEnd {c : Char} (kind : TokenKind)
    (hc : (c, Scan.flowEnd kind) ∈ structureTokens) (hkind : kind ≠ .streamEnd)
    (hws : ∀ c ∈ ws, isLayout c = true) (ht : AtToken tail) (hlevel : 0 < p.level)
    (hrest : FinishesFrom kinds
      (Progress.found { p with level := p.level - 1, allowed := false } kind) tail) :
    FinishesFrom kinds p (c :: (ws ++ tail)) := by
  have hlen : tail.length < (c :: (ws ++ tail)).length := by
    rw [List.length_cons, List.length_append]
    omega
  refine .of_found (atContent_structure hc) hlen rfl hkind (fun m t ht' => ?_) hrest
  rw [contentToken_structure ht' hc]
  exact flowEnd_at ht' hws ht hlevel

theorem flowEntry (hws : ∀ c ∈ ws, isLayout c = true) (ht : AtToken tail)
    (hrest : FinishesFrom kinds (Progress.found { p with allowed := true } .flowEntry) tail) :
    FinishesFrom kinds p (',' :: (ws ++ tail)) := by
  have hc : (',', Scan.flowEntry) ∈ structureTokens := by
    simp only [structureTokens, List.mem_cons, true_or, or_true]
  have hlen : tail.length < (',' :: (ws ++ tail)).length := by
    rw [List.length_cons, List.length_append]
    omega
  refine .of_found (atContent_structure hc) hlen rfl (by decide) (fun m t ht' => ?_) hrest
  rw [contentToken_structure ht' hc]
  exact flowEntry_at ht' hws ht

theorem quoted {pieces : List StringPiece} (hp : HasNoSurrogates pieces)
    (hws : ∀ c ∈ ws, isLayout c = true) (hend : EndsScalar p.level tail)
    (hrest : FinishesFrom kinds (Progress.found { p with allowed := false }
      (.scalar .doubleQuoted (stringMeaning pieces))) tail) :
    FinishesFrom kinds p (stringSpelling pieces ++ (ws ++ tail)) := by
  have hc : ('"', Scan.quoted false) ∈ structureTokens := by
    simp only [structureTokens, List.mem_cons, true_or, or_true]
  have hlen : tail.length < (stringSpelling pieces ++ (ws ++ tail)).length := by
    simp only [stringSpelling, List.length_append, List.length_cons]
    omega
  refine .of_found (atContent_structure hc) hlen rfl (by simp) (fun m t ht => ?_) hrest
  rw [contentToken_structure ht hc]
  obtain ⟨u, hu, hu', -⟩ := quoted_at ht hp hws hend
  exact ⟨u, hu, hu'.before⟩

theorem plain {w : List Char} (hw : IsPlain w) (hws : ∀ c ∈ ws, isLayout c = true)
    (hend : EndsPlain p.level tail)
    (hrest : FinishesFrom kinds (Progress.found { p with allowed := false }
      (.scalar .plain (String.ofList w))) tail) :
    FinishesFrom kinds p (w ++ (ws ++ tail)) := by
  obtain ⟨c, w, rfl⟩ : ∃ c w', w = c :: w' := by
    cases w with
    | nil => exact absurd hw.start (by decide)
    | cons c w => exact ⟨c, w, rfl⟩
  have hlen : tail.length < (c :: w ++ (ws ++ tail)).length := by
    simp only [List.length_append, List.length_cons]
    omega
  have hne : ∀ d : Char, isWordChar d = false → c ≠ d := fun d hd he =>
    Bool.false_ne_true (hd.symm.trans (he ▸ hw.start))
  have hdigit : c = '-' → Text.isDigit (Scan.next (w ++ (ws ++ tail))) = true := fun hc => by
    have hdash := hw.dash hc
    cases w with
    | nil =>
      have hnull : Text.isDigit '\x00' = true := hdash
      exact absurd hnull (by decide)
    | cons d w => exact hdash
  have hlayout : isLayout c = false := by
    rw [isLayout, isBlank, isBreak, beq_eq_false_iff_ne.mpr (hne ' ' rfl),
      beq_eq_false_iff_ne.mpr (hne '\t' rfl), beq_eq_false_iff_ne.mpr (hne '\n' rfl),
      beq_eq_false_iff_ne.mpr (hne '\r' rfl)]
    rfl
  have hc : AtContent (c :: w ++ (ws ++ tail)) := by
    refine ⟨⟨hlayout, hne '#' rfl⟩, beq_eq_false_iff_ne.mpr (hne '\x00' rfl), hne '%' rfl,
      hne '.' rfl, fun hd he => ?_⟩
    exact absurd ((he : Scan.next (w ++ (ws ++ tail)) = '-') ▸ hdigit hd) (by decide)
  refine .of_found hc hlen rfl (by simp) (fun m t ht => ?_) hrest
  rw [contentToken_plain ht hw.start fun hd => isGap_digit (hdigit hd)]
  obtain ⟨u, hu, hu'⟩ := plain_at ht hw hws hend
  exact ⟨u, hu, hu'.before⟩

theorem key {pieces : List StringPiece} {ws' : List Char} (hp : HasNoSurrogates pieces)
    (hws : ∀ c ∈ ws, isLayout c = true) (hws' : ∀ c ∈ ws', isLayout c = true) (ht : AtToken tail)
    (hgap : IsWideGap ws' tail) (hlevel : 0 < p.level) (hmapping : p.mapping = true)
    (hallowed : p.allowed = true)
    (hrest : FinishesFrom kinds
      { p with
        kinds := p.kinds ++ [.key, .scalar .doubleQuoted (stringMeaning pieces), .value]
        allowed := false } tail) :
    FinishesFrom kinds p (stringSpelling pieces ++ (ws ++ ':' :: (ws' ++ tail))) := by
  have hc : ('"', Scan.quoted false) ∈ structureTokens := by
    simp only [structureTokens, List.mem_cons, true_or, or_true]
  have hend : EndsScalar p.level (':' :: (ws' ++ tail)) :=
    Or.inr ⟨hlevel, Or.inr (Or.inr (Or.inr rfl))⟩
  have hlen : (':' :: (ws' ++ tail)).length <
      (stringSpelling pieces ++ (ws ++ ':' :: (ws' ++ tail))).length := by
    simp only [stringSpelling, List.length_append, List.length_cons]
    omega
  have hlen' : tail.length < (':' :: (ws' ++ tail)).length := by
    simp only [List.length_append, List.length_cons]
    omega
  intro hopen m s hs
  obtain ⟨ws₀, hws₀, hat⟩ := hs
  refine .of_next hat hopen (Nat.succ_lt_succ hlen) fun t _ ht₀ => ?_
  obtain ⟨t₁, hnext, ht₁⟩ := nextToken_before ⟨ws₀, hws₀, ht₀⟩ (atContent_structure hc)
  obtain ⟨u, hu, hat', hafter⟩ := quoted_at ht₁ hp hws hend
  rw [contentToken_structure ht₁ hc, hu] at hnext
  have hopen' : .streamEnd ∉ (p.found (.scalar .doubleQuoted (stringMeaning pieces))).kinds := by
    simp [Progress.found, hopen]
  refine ⟨u, hnext, hat'.handedOut, ?_, ?_⟩
  · rw [ht₀.count_eq, hat'.count_eq, Progress.length_found]
    exact Nat.lt_succ_self _
  -- the colon comes right after the key
  refine .of_next hat' hopen' (Nat.succ_lt_succ hlen') fun v hv hat₂ => ?_
  have hflow : 0 < u.flowLevel := hat'.level ▸ hlevel
  obtain ⟨v₁, hnext₂, hat₃, hafter₃⟩ := nextToken_colon hat₂ hlevel
    ((hafter (ht₁.allowed hallowed)).of_alike hv hflow)
  obtain ⟨w, hw, hbefore⟩ := mappingValue_at hat₃ hlevel hmapping hafter₃ rfl hws' ht hgap
  have hfin := hrest (by simp [hopen]) _ w hbefore
  obtain ⟨ws₄, -, hat₄⟩ := hbefore
  refine ⟨w, hnext₂.trans hw, hat₄.handedOut, ?_, hfin⟩
  rw [hat₂.count_eq, hat₄.count_eq]
  simp [Progress.found]

theorem finish (hkinds : kinds = p.kinds ++ [.streamEnd]) : FinishesFrom kinds p [] := by
  intro hopen m s hs
  obtain ⟨ws, hws, hat⟩ := hs
  refine .of_next hat hopen (Nat.zero_lt_succ _) fun t _ ht => ?_
  obtain ⟨u, hu, hu', hkeys⟩ := nextToken_end ⟨ws, hws, ht⟩
  refine ⟨u, hu, hu'.handedOut, ?_, .ended hu' hkinds.symm ?_ hkeys⟩
  · rw [ht.count_eq, hu'.count_eq, Progress.length_found]
    exact Nat.lt_succ_self _
  · rw [hkinds, List.getLast?_concat]

end FinishesFrom

end Yaml
end TypedConfig
