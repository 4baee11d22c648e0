/-
# How the scanner comes through JSON

All along a JSON text the state of the scanner is simple: there is no indentation, no
pair without braces and no key that is required. What else is to be known of it is
how far it has come (`Progress`). Each step is said once by what it does to that, as
long as the text is JSON. Between two tokens the state may change in one way only:
tokens are handed out, and outside of flow collections keys are forgotten
(`ScanState.Alike`).

Key definitions: `Progress`, `ScanState.At`, `ScanState.Before`, `ScanState.Alike`,
`Scan.AtContent`.
Key theorems: `Scan.saveKey_at`, `Scan.skipToToken_before`, `Scan.skipToLineEnd_before`,
`Scan.nextToken_before`.
-/
import TypedConfig.Proofs.Yaml.Quoted
import TypedConfig.Yaml.Tokenizer

namespace TypedConfig
namespace Yaml

open Scan

/-- How far the scanner has come in a JSON text. -/
structure Progress where
  /-- The kinds of the tokens found so far. -/
  kinds : List TokenKind
  handedOut : Nat
  /-- How many flow collections are open. -/
  level : Nat
  /-- Whether a flow mapping must have begun. -/
  mapping : Bool
  /-- Whether a key must be allowed. -/
  allowed : Bool

/-- Another token has been found. -/
def Progress.found (p : Progress) (kind : TokenKind) : Progress :=
  { p with kinds := p.kinds ++ [kind] }

theorem Progress.length_found (p : Progress) (kind : TokenKind) :
    (p.found kind).kinds.length = p.kinds.length + 1 := List.length_append

/-- The scanner has come so far and stands before the text `cs`. All along a JSON text it knows
no indentation, no pair without braces, and no key that is required. -/
structure ScanState.At (s : ScanState) (p : Progress) (cs : List Char) : Prop where
  started : s.started = true
  rest : s.rest = cs
  left : s.left = cs.length
  indent : s.indent = -1
  indents : s.indents = []
  pairOpen : s.pairOpen = false
  count : s.count = s.tokens.length
  keys : s.keys.length = p.level + 1
  notRequired : ∀ key ∈ s.keys, key.required = false
  kinds : s.tokens.reverse.map (·.kind) = p.kinds
  handedOut : s.handedOut = p.handedOut
  level : s.flowLevel = p.level
  mapping : p.mapping = true → s.flowMappingStarted = true
  allowed : p.allowed = true → s.keyAllowed = true

/-- The scanner has come so far and stands before the text `tail`, with at most layout in
between. -/
def ScanState.Before (s : ScanState) (p : Progress) (tail : List Char) : Prop :=
  ∃ ws, (∀ c ∈ ws, isLayout c = true) ∧ s.At p (ws ++ tail)

/-- The states differ only in how many tokens were handed out and, outside of flow collections,
in keys for which a colon would come too late. -/
structure ScanState.Alike (s t : ScanState) : Prop where
  same : ∃ n keys, t = { s with handedOut := n, keys }
  length : t.keys.length = s.keys.length
  keys : ∀ key ∈ t.keys, ∃ key' ∈ s.keys, key = key' ∨ key = { key' with possible := false }
  flow : 0 < s.flowLevel → t.keys = s.keys

variable {s t u : ScanState} {p : Progress} {cs tail : List Char}

namespace ScanState

/-! ### States that are alike -/

theorem Alike.refl (s : ScanState) : s.Alike s :=
  ⟨⟨s.handedOut, s.keys, rfl⟩, rfl, fun key hk => ⟨key, hk, Or.inl rfl⟩, fun _ => rfl⟩

theorem Alike.handing (h : s.Alike t) (n : Nat) : s.Alike { t with handedOut := n } := by
  obtain ⟨⟨m, keys, rfl⟩, hlength, hkeys, hflow⟩ := h
  exact ⟨⟨n, keys, rfl⟩, hlength, hkeys, hflow⟩

theorem Alike.trans (h : s.Alike t) (h' : t.Alike u) : s.Alike u := by
  obtain ⟨⟨m, keys, rfl⟩, hlength, hkeys, hflow⟩ := h
  obtain ⟨⟨n, keys', rfl⟩, hlength', hkeys', hflow'⟩ := h'
  refine ⟨⟨n, keys', rfl⟩, hlength'.trans hlength, fun key hk => ?_, fun hl =>
    (hflow' hl).trans (hflow hl)⟩
  obtain ⟨key', hk', he⟩ := hkeys' key hk
  obtain ⟨key'', hk'', he'⟩ := hkeys key' hk'
  refine ⟨key'', hk'', ?_⟩
  rcases he with rfl | rfl <;> rcases he' with rfl | rfl
  · exact Or.inl rfl
  · exact Or.inr rfl
  · exact Or.inr rfl
  · exact Or.inr rfl

theorem Alike.at (h : s.Alike t) (hs : s.At p cs) :
    t.At { p with handedOut := t.handedOut } cs := by
  obtain ⟨⟨n, keys, rfl⟩, hlength, hkeys, -⟩ := h
  refine ⟨hs.started, hs.rest, hs.left, hs.indent, hs.indents, hs.pairOpen, hs.count,
    hlength.trans hs.keys, fun key hk => ?_, hs.kinds, rfl, hs.level, hs.mapping, hs.allowed⟩
  obtain ⟨key', hk', rfl | rfl⟩ := hkeys key hk
  · exact hs.notRequired key hk'
  · exact hs.notRequired key' hk'

/-! ### Where the scanner stands -/

theorem At.before (h : s.At p cs) : s.Before p cs :=
  ⟨[], fun _ hc => absurd hc List.not_mem_nil, h⟩

theorem At.eq_moved (h : s.At p cs) : s = s.moved cs s.mark s.lineIsBlank :=
  ScanState.eq_moved h.rest h.left

theorem At.moved (h : s.At p cs) (cs' : List Char) (mark : Mark) (lb : Bool) :
    (s.moved cs' mark lb).At p cs' :=
  ⟨h.started, rfl, rfl, h.indent, h.indents, h.pairOpen, h.count, h.keys, h.notRequired, h.kinds,
    h.handedOut, h.level, h.mapping, h.allowed⟩

theorem At.newLine (h : s.At p cs) : s.newLine.At p cs := by
  unfold ScanState.newLine
  split
  · exact { h with allowed := fun _ => rfl }
  · exact h

theorem At.count_eq (h : s.At p cs) : s.count = p.kinds.length := by
  rw [h.count, ← h.kinds, List.length_map, List.length_reverse]

theorem At.of_skips (h : s.At p cs) (hs : Skips s t tail) : t.At p tail := by
  obtain ⟨mark, lb, rfl | rfl⟩ := hs
  · exact h.moved tail mark lb
  · exact h.newLine.moved tail mark lb

end ScanState

namespace Scan

open ScanState

/-! ### What the steps of the scanner do -/

theorem skipToToken_before (h : s.Before p tail) (ht : AtToken tail) :
    ∃ t, skipToToken s = .ok ((), t) ∧ t.At p tail ∧ t.keys = s.keys := by
  obtain ⟨ws, hws, h⟩ := h
  obtain ⟨t, hskip, hskips⟩ := skipToToken_layout ht ws s s.mark s.lineIsBlank hws h.indents
  rw [← h.eq_moved] at hskip
  exact ⟨t, hskip, h.of_skips hskips, hskips.keys⟩

theorem skipToLineEnd_before (h : s.Before p tail) (ht : AtToken tail) :
    ∃ skipped t, skipToLineEnd true s = .ok (skipped, t) ∧ t.Before p tail := by
  obtain ⟨ws, hws, h⟩ := h
  obtain ⟨skipped, ws', m, hskip, hws', -⟩ := skipToLineEnd_layout ht hws h.rest
    (h.left.trans (congrArg List.length h.rest).symm)
  exact ⟨skipped, _, hskip, ws', hws', h.moved _ _ _⟩

theorem skip_eq {c : Char} (h : s.At p (c :: cs)) :
    skip s =
      .ok ((), s.moved cs ⟨s.mark.index + 1, s.mark.line, s.mark.column + 1⟩ false) := by
  have hskip : skip (s.moved (c :: cs) s.mark s.lineIsBlank) =
      .ok ((), s.moved cs ⟨s.mark.index + 1, s.mark.line, s.mark.column + 1⟩ false) := skip_moved
  rwa [← h.eq_moved] at hskip

theorem skip_at {c : Char} (h : s.At p (c :: cs)) : ∃ t, skip s = .ok ((), t) ∧ t.At p cs :=
  ⟨_, skip_eq h, h.moved _ _ _⟩

theorem emit_at (h : s.At p cs) (mark : Mark) (kind : TokenKind) :
    ∃ t, emit mark kind s = .ok ((), t) ∧ t.At (p.found kind) cs ∧ t.keys = s.keys := by
  refine ⟨_, update_apply _ s, ⟨h.started, h.rest, h.left, h.indent, h.indents, h.pairOpen,
    congrArg (· + 1) h.count, h.keys, h.notRequired, ?_, h.handedOut, h.level, h.mapping,
    h.allowed⟩, rfl⟩
  rw [List.reverse_cons, List.map_append, h.kinds]
  rfl

theorem emit_before (h : s.Before p tail) (mark : Mark) (kind : TokenKind) :
    ∃ t, emit mark kind s = .ok ((), t) ∧ t.Before (p.found kind) tail := by
  obtain ⟨ws, hws, h⟩ := h
  obtain ⟨t, hemit, ht, -⟩ := emit_at h mark kind
  exact ⟨t, hemit, ws, hws, ht⟩

theorem setKeyAllowed_at (h : s.At p cs) (allowed : Bool) :
    ∃ t, setKeyAllowed allowed s = .ok ((), t) ∧ t.At { p with allowed } cs ∧ t.keys = s.keys :=
  ⟨_, update_apply _ s, { h with allowed := id }, rfl⟩

/-- Without a required key in view, the key of the innermost collection is a possible one if
a key is allowed. -/
theorem saveKey_at (h : s.At p cs) :
    ∃ t, saveKey s = .ok ((), t) ∧ t.At p cs ∧
      (s.keyAllowed = true → t.keys = ⟨true, false, s.count, s.mark⟩ :: s.keys.tail) := by
  by_cases hallowed : s.keyAllowed = true
  · have hsave : saveKey s =
        .ok ((), { s with keys := ⟨true, false, s.count, s.mark⟩ :: s.keys.tail }) := by
      rw [saveKey, update_apply, if_pos hallowed, h.indents]
      simp only [Bool.and_false]
    refine ⟨_, hsave, { h with keys := ?_, notRequired := ?_ }, fun _ => rfl⟩
    · rw [List.length_cons, List.length_tail, h.keys, Nat.add_sub_cancel]
    · intro key hk
      rcases List.mem_cons.mp hk with rfl | hk
      · rfl
      · exact h.notRequired key (List.mem_of_mem_tail hk)
  · refine ⟨s, ?_, h, fun ha => absurd ha hallowed⟩
    rw [saveKey, update_apply, if_neg hallowed]

theorem hangIndent_at (h : s.At p cs) : hangIndent s = .ok ((), s) := by
  rw [hangIndent, update_apply, h.indents]
  cases s.flowLevel <;> rfl

theorem enterFlow_at (h : s.At p cs) (hlevel : p.level < flowLimit) :
    ∃ t, enterFlow s = .ok ((), t) ∧ t.At { p with level := p.level + 1 } cs := by
  have hlt : ({ s with keys := SimpleKey.none :: s.keys } : ScanState).flowLevel < flowLimit :=
    h.level ▸ hlevel
  refine ⟨{ s with keys := SimpleKey.none :: s.keys, flowLevel := s.flowLevel + 1 }, ?_, ?_⟩
  · rw [enterFlow, update_bind, get_bind, if_pos hlt]
    rfl
  · refine { h with
      keys := congrArg (· + 1) h.keys
      notRequired := fun key hk => ?_
      level := congrArg (· + 1) h.level }
    rcases List.mem_cons.mp hk with rfl | hk
    · rfl
    · exact h.notRequired key hk

theorem forgetKey_at (h : s.At p cs) :
    ∃ t, forgetKey s = .ok ((), t) ∧ t.At p cs ∧
      ((∀ key ∈ s.keys, key.possible = false) → ∀ key ∈ t.keys, key.possible = false) := by
  refine ⟨_, update_apply _ s, ?_⟩
  cases hkeys : s.keys with
  | nil => exact ⟨h, fun _ key hk => absurd (hkeys ▸ hk) List.not_mem_nil⟩
  | cons key keys =>
    refine ⟨{ h with
      keys := (congrArg List.length hkeys).symm.trans h.keys, notRequired := fun key' hk => ?_ },
      fun hp key' hk => ?_⟩
    · have hn := h.notRequired
      rw [hkeys] at hn
      rcases List.mem_cons.mp hk with rfl | hk
      · exact hn key List.mem_cons_self
      · exact hn key' (List.mem_cons_of_mem _ hk)
    · rcases List.mem_cons.mp hk with rfl | hk
      · rfl
      · exact hp key' (List.mem_cons_of_mem _ hk)

theorem removeKey_at (h : s.At p cs) :
    ∃ t, removeKey s = .ok ((), t) ∧ t.At p cs ∧
      ((∀ key ∈ s.keys, key.possible = false) → ∀ key ∈ t.keys, key.possible = false) := by
  unfold removeKey
  rw [get_bind]
  cases hkeys : s.keys with
  | nil => exact ⟨s, rfl, h, fun _ key hk => absurd (hkeys ▸ hk) List.not_mem_nil⟩
  | cons key keys =>
    have hn : key.required = false := h.notRequired key (hkeys ▸ List.mem_cons_self)
    change ∃ t, (if key.possible && key.required then _ else forgetKey : Scan Unit) s = _ ∧ _
    rw [hn, Bool.and_false, if_neg Bool.false_ne_true, ← hkeys]
    exact forgetKey_at h

theorem leaveFlow_at (h : s.At p cs) (hlevel : 0 < p.level) :
    ∃ t, leaveFlow s = .ok ((), t) ∧ t.At { p with level := p.level - 1 } cs := by
  have hflow : 0 < s.flowLevel := h.level ▸ hlevel
  refine ⟨{ s with flowLevel := s.flowLevel - 1, keys := s.keys.tail }, ?_, ?_⟩
  · rw [leaveFlow, update_apply, if_pos hflow]
  · refine { h with keys := ?_, notRequired := ?_, level := congrArg (· - 1) h.level }
    · rw [List.length_tail, h.keys]
      change _ = p.level - 1 + 1
      omega
    · exact fun key hk => h.notRequired key (List.mem_of_mem_tail hk)

theorem endPair_at (h : s.At p cs) (mark : Mark) : endPair mark s = .ok ((), s) := by
  rw [endPair, get_bind, h.pairOpen]
  rfl

/-! ### The next token -/

/-- The text goes on with a token that is no directive and no document indicator. -/
structure AtContent (cs : List Char) : Prop extends AtToken cs where
  inText : isEnd (next cs) = false
  directive : next cs ≠ '%'
  dot : next cs ≠ '.'
  dashes : next cs = '-' → next cs.tail ≠ '-'

theorem isStale_flow (h : 0 < s.flowLevel) (key : SimpleKey) : isStale s key = false := by
  have h0 : decide (s.flowLevel = 0) = false := decide_eq_false (Nat.ne_of_gt h)
  rw [isStale, h0, Bool.and_false, Bool.false_and]

theorem dropStaleKeys_alike (hn : ∀ key ∈ s.keys, key.required = false) :
    ∃ t, dropStaleKeys s = .ok ((), t) ∧ s.Alike t ∧ t.handedOut = s.handedOut := by
  have hany : (s.keys.any fun key => isStale s key && key.required) = false := by
    rw [List.any_eq_false]
    intro key hk
    rw [hn key hk, Bool.and_false]
    exact Bool.false_ne_true
  let keys := s.keys.map fun key => if isStale s key then { key with possible := false } else key
  refine ⟨{ s with keys }, ?_, ⟨⟨s.handedOut, keys, rfl⟩, List.length_map _, ?_, ?_⟩, rfl⟩
  · unfold dropStaleKeys
    rw [get_bind, if_neg (Bool.eq_false_iff.mp hany)]
    rfl
  · intro key hk
    obtain ⟨key', hk', rfl⟩ := List.mem_map.mp hk
    refine ⟨key', hk', ?_⟩
    split
    · exact Or.inr rfl
    · exact Or.inl rfl
  · intro hflow
    refine (List.map_congr_left fun key _ => ?_).trans (List.map_id _)
    rw [isStale_flow hflow, if_neg Bool.false_ne_true]
    rfl

theorem unrollIndent_flat (hi : s.indents = []) (column : Int) :
    unrollIndent column s = .ok ((), s) := by
  rw [unrollIndent, update_apply]
  by_cases hflow : 0 < s.flowLevel
  · rw [if_pos hflow]
  · rw [if_neg hflow, hi, unrollFrom]
    simp only [List.replicate_zero, List.nil_append, Nat.add_zero]
    rw [← hi]

theorem atIndicator_false {c : Char} (h : next s.rest = c → next s.rest.tail ≠ c) :
    atIndicator c s = .ok (false, s) := by
  have h0 : s.rest[0]?.getD '\x00' = next s.rest := by rw [next, List.head?_eq_getElem?]
  have h1 : s.rest[1]?.getD '\x00' = next s.rest.tail := by
    rw [next, List.head?_eq_getElem?, List.getElem?_tail]
  have hnext : (next s.rest == c && next s.rest.tail == c) = false := by
    rw [Bool.and_eq_false_iff, beq_eq_false_iff_ne, beq_eq_false_iff_ne]
    exact Decidable.not_or_of_imp h
  unfold atIndicator
  rw [here_bind, peekAt_bind, peekAt_bind, peekAt_bind, peekAt_bind, h0, h1]
  simp only [Bool.and_assoc, hnext, Bool.false_and, Bool.and_false]
  rfl

/-- In front of content nothing ends, and the content is read. -/
theorem nextToken_of_skip (h : skipToToken s = .ok ((), t)) (hs : s.started = true)
    (ht : t.At p cs) (hc : AtContent cs) :
    ∃ u, nextToken s = contentToken u ∧ t.Alike u ∧ u.At p cs := by
  obtain ⟨u, hdrop, halike, hhanded⟩ := dropStaleKeys_alike ht.notRequired
  have hu : u.At p cs := by
    have := halike.at ht
    rwa [hhanded, ht.handedOut] at this
  refine ⟨u, ?_, halike, hu⟩
  have hdash : atIndicator '-' u = .ok (false, u) := atIndicator_false (hu.rest ▸ hc.dashes)
  have hdot : atIndicator '.' u = .ok (false, u) :=
    atIndicator_false fun h => absurd (hu.rest ▸ h) hc.dot
  have hpercent : (next cs == '%') = false := beq_eq_false_iff_ne.mpr hc.directive
  have hpeek : ∀ k : Char → Scan Unit, (peek >>= k) u = k (next cs) u := fun k =>
    hu.rest ▸ peek_bind k u
  unfold nextToken
  rw [get_bind, hs, if_neg (by decide), bind_of_ok h, bind_of_ok hdrop, here_bind,
    bind_of_ok (unrollIndent_flat hu.indents _), hpeek, if_neg (Bool.eq_false_iff.mp hc.inText),
    here_bind, hpeek, hpercent, Bool.and_false, if_neg Bool.false_ne_true, bind_of_ok hdash,
    if_neg Bool.false_ne_true, bind_of_ok hdot, if_neg Bool.false_ne_true]

/-- In front of content, layout is skipped and the content is read. -/
theorem nextToken_before (h : s.Before p tail) (hc : AtContent tail) :
    ∃ t, nextToken s = contentToken t ∧ t.At p tail := by
  obtain ⟨t, hskip, ht, -⟩ := skipToToken_before h hc.toAtToken
  obtain ⟨ws, -, hs⟩ := h
  obtain ⟨u, hnext, -, hu⟩ := nextToken_of_skip hskip hs.started ht hc
  exact ⟨u, hnext, hu⟩

end Scan
end Yaml
end TypedConfig
