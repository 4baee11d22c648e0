/-
# All tokens of a text

Tokens are handed out one by one, and before each the scanner reads on until no key
can come in front of it any more. Which tokens there are in the end does not depend on
when they are handed out: if the scanner finds them in so many steps, whatever is
handed out in the meantime (`Finishes`), they are the tokens of the text
(`Finishes.tokensFrom`).

Key definitions: `Finishes`.
Key theorems: `Scan.nextToken_start`, `Scan.nextToken_end`, `Finishes.prepare`,
`Finishes.tokensFrom`.
-/
import TypedConfig.Proofs.Yaml.Flow

namespace TypedConfig
namespace Yaml

open Scan ScanState

variable {s t u : ScanState} {p : Progress} {cs ws tail : List Char} {kinds : List TokenKind}
  {m n fuel : Nat}

/-! ### The colon, the beginning and the end of the text -/

namespace Scan

theorem AfterKey.of_alike (h : AfterKey s) (ha : s.Alike t) (hlevel : 0 < s.flowLevel) :
    AfterKey t := by
  have hkeys := ha.flow hlevel
  obtain ⟨⟨m, keys, rfl⟩, -⟩ := ha
  obtain ⟨key, keys', he, hpossible, hcount⟩ := h.key
  exact ⟨h.adjacent, key, keys', hkeys.trans he, hpossible, hcount⟩

/-- A colon right after a key is read as such. -/
theorem nextToken_colon (h : s.At p (':' :: cs)) (hlevel : 0 < p.level) (hkey : AfterKey s) :
    ∃ u, nextToken s = mappingValue u ∧ u.At p (':' :: cs) ∧ AfterKey u := by
  have hc : AtContent (':' :: cs) := ⟨⟨rfl, (by decide : ':' ≠ '#')⟩, rfl, (by decide : ':' ≠ '%'),
    (by decide : ':' ≠ '.'), fun he => absurd (show ':' = '-' from he) (by decide)⟩
  have hskip : skipToToken s = .ok ((), s) := by
    have hdone : skipToToken (s.moved (':' :: cs) s.mark s.lineIsBlank) =
        .ok ((), s.moved (':' :: cs) s.mark s.lineIsBlank) :=
      skipToToken_done h.indents hc.toAtToken
    rwa [← h.eq_moved] at hdone
  obtain ⟨u, hnext, halike, hu⟩ := nextToken_of_skip hskip h.started h hc
  have hafter := hkey.of_alike halike (h.level ▸ hlevel)
  refine ⟨u, hnext.trans ?_, hu, hafter⟩
  have hcolumn : ¬(u.mark.column : Int) < u.indent := by
    rw [hu.indent]
    omega
  have hpeek : ∀ k : Char → Scan Unit, (peek >>= k) u = k ':' u := fun k =>
    (peek_bind k u).trans (by rw [hu.rest]; rfl)
  have hvalue : ∀ d, colonIsValue u d = true := fun d => by
    rw [colonIsValue, hafter.adjacent, decide_eq_true (hu.level ▸ hlevel : 0 < u.flowLevel),
      decide_eq_true rfl, Bool.or_true, Bool.true_and, Bool.or_true]
  unfold contentToken
  rw [get_bind, hpeek, peekAt_bind, if_neg hcolumn, hvalue]
  rfl

/-- At the end of the text no key is possible any more. -/
theorem nextToken_end (h : s.Before p []) :
    ∃ u, nextToken s = .ok ((), u) ∧ u.At ({ p with allowed := false }.found .streamEnd) [] ∧
      ∀ key ∈ u.keys, key.possible = false := by
  obtain ⟨t, hskip, ht, -⟩ := skipToToken_before h ⟨rfl, (by decide : '\x00' ≠ '#')⟩
  obtain ⟨ws, -, hs⟩ := h
  obtain ⟨s₁, h₁, halike, hhanded⟩ := dropStaleKeys_alike ht.notRequired
  have hs₁ : s₁.At p [] := by
    have := halike.at ht
    rwa [hhanded, ht.handedOut] at this
  let s₂ : ScanState :=
    if s₁.mark.column = 0 then s₁ else { s₁ with mark := ⟨s₁.mark.index, s₁.mark.line + 1, 0⟩ }
  have hs₂ : s₂.At p [] := by
    change (if _ then _ else _ : ScanState).At _ _
    split
    · exact hs₁
    · exact { hs₁ with }
  have hrequired : ¬(s₂.keys.any fun key => key.required && key.possible) = true := by
    rw [List.any_eq_true]
    rintro ⟨key, hk, h⟩
    rw [hs₂.notRequired key hk] at h
    exact Bool.false_ne_true h
  let s₃ : ScanState := { s₂ with keys := s₂.keys.map fun key => { key with possible := false } }
  have hpossible : ∀ key ∈ s₃.keys, key.possible = false := by
    intro key hk
    obtain ⟨key', -, rfl⟩ := List.mem_map.mp hk
    rfl
  have hs₃ : s₃.At p [] := by
    refine { hs₂ with keys := (List.length_map _).trans hs₂.keys, notRequired := ?_ }
    intro key hk
    obtain ⟨key', hk', rfl⟩ := List.mem_map.mp hk
    exact hs₂.notRequired key' hk'
  obtain ⟨s₄, h₄, hs₄, hsub⟩ := removeKey_at hs₃
  obtain ⟨s₅, h₅, hs₅, hkeys₅⟩ := setKeyAllowed_at hs₄ false
  obtain ⟨s₆, h₆, hs₆, hkeys₆⟩ := emit_at hs₅ s₅.mark .streamEnd
  refine ⟨s₆, ?_, hs₆, ?_⟩
  · have hpeek : ∀ k : Char → Scan Unit, (peek >>= k) s₁ = k '\x00' s₁ := fun k =>
      (peek_bind k s₁).trans (by rw [hs₁.rest]; rfl)
    unfold nextToken
    rw [get_bind, hs.started, if_neg (by decide), bind_of_ok hskip, bind_of_ok h₁, here_bind,
      bind_of_ok (unrollIndent_flat hs₁.indents _), hpeek, if_pos (by decide), streamEnd,
      update_bind, get_bind]
    refine (congrFun (if_neg hrequired) _).trans ((update_bind _ _ _).trans ?_)
    refine (bind_of_ok (unrollIndent_flat hs₃.indents _) _).trans ((bind_of_ok h₄ _).trans ?_)
    exact (bind_of_ok h₅ _).trans h₆
  · intro key hk
    rw [hkeys₆, hkeys₅] at hk
    exact hsub hpossible key hk

/-- The text is begun. -/
theorem nextToken_start (text : List Char) (h : (ScanState.start text).Alike s) :
    ∃ u, nextToken s = .ok ((), u) ∧
      u.At ⟨[.streamStart], s.handedOut, 0, false, true⟩ text := by
  obtain ⟨⟨m, keys, rfl⟩, hlength, -⟩ := h
  have hkeys : keys = [] := List.length_eq_zero_iff.mp hlength
  subst hkeys
  refine ⟨_, rfl, rfl, rfl, rfl, rfl, rfl, rfl, rfl, rfl, ?_, rfl, rfl, rfl, ?_, fun _ => rfl⟩
  · intro key hk
    rw [List.mem_singleton.mp hk]
    rfl
  · exact fun h => absurd h Bool.false_ne_true

end Scan

/-! ### The tokens of the whole text -/

/-- The scanner finds tokens of these kinds in at most `n` more steps, whatever is handed out
in the meantime. -/
inductive Finishes (kinds : List TokenKind) : Nat → ScanState → Prop
  | ended {n : Nat} {s : ScanState} {p : Progress} (h : s.At p []) (hkinds : p.kinds = kinds)
      (hlast : kinds.getLast? = some .streamEnd)
      (hkeys : ∀ key ∈ s.keys, key.possible = false) : Finishes kinds n s
  | step {m n : Nat} {s : ScanState} (hn : m < n)
      (hlast : s.tokens.head?.map (·.kind) ≠ some .streamEnd)
      (hkeys : ∀ key ∈ s.keys, key.required = false)
      (hnext : ∀ t, s.Alike t →
        ∃ u, nextToken t = .ok ((), u) ∧ u.handedOut = t.handedOut ∧ t.count < u.count)
      (hrest : ∀ t u, s.Alike t → nextToken t = .ok ((), u) → Finishes kinds m u) :
      Finishes kinds n s

namespace Finishes

theorem alike (h : Finishes kinds n s) (ha : s.Alike t) : Finishes kinds n t := by
  cases h with
  | ended h hkinds hlast hkeys =>
    refine .ended (ha.at h) hkinds hlast fun key hk => ?_
    obtain ⟨key', hk', rfl | rfl⟩ := ha.keys key hk
    · exact hkeys key hk'
    · rfl
  | step hn hlast hkeys hnext hrest =>
    have hsame := ha.same
    obtain ⟨m, keys, rfl⟩ := hsame
    refine .step hn hlast (fun key hk => ?_) (fun u hu => hnext u (ha.trans hu))
      fun u v hu => hrest u v (ha.trans hu)
    obtain ⟨key', hk', rfl | rfl⟩ := ha.keys key hk
    · exact hkeys key hk'
    · exact hkeys key' hk'

theorem mono (h : Finishes kinds m s) (hn : m ≤ n) : Finishes kinds n s := by
  cases h with
  | ended h hkinds hlast hkeys => exact .ended h hkinds hlast hkeys
  | step hm hlast hkeys hnext hrest =>
    exact .step (Nat.lt_of_lt_of_le hm hn) hlast hkeys hnext hrest

theorem notRequired (h : Finishes kinds n s) : ∀ key ∈ s.keys, key.required = false := by
  cases h with
  | ended h hkinds hlast hkeys => exact h.notRequired
  | step hn hlast hkeys hnext hrest => exact hkeys

theorem count_le (h : Finishes kinds n s) : s.count ≤ kinds.length := by
  induction h with
  | ended h hkinds hlast hkeys => exact Nat.le_of_eq (h.count_eq.trans (congrArg _ hkinds))
  | step hn hlast hkeys hnext hrest ih =>
    obtain ⟨u, hu, -, hlt⟩ := hnext _ (.refl _)
    exact Nat.le_of_lt (Nat.lt_of_lt_of_le hlt (ih _ u (.refl _) hu))

/-- With the end of the text all tokens are found. -/
theorem of_head (h : Finishes kinds n s) (hlast : s.tokens.head?.map (·.kind) = some .streamEnd) :
    s.tokens.reverse.map (·.kind) = kinds ∧ s.tokens.length = s.count := by
  cases h with
  | ended h hkinds _ hkeys => exact ⟨h.kinds.trans hkinds, h.count.symm⟩
  | step hn hopen hkeys hnext hrest => exact absurd hlast hopen

/-- Until the end of the text is handed out, it may be found, or the scanner goes on. -/
theorem cases_isDone (h : Finishes kinds n s) (hdone : s.isDone = false) :
    (∀ key ∈ s.keys, key.possible = false) ∧ s.handedOut ≠ s.count ∨
      ∃ u, nextToken s = .ok ((), u) ∧ u.handedOut = s.handedOut ∧ s.count < u.count ∧
        ∃ m < n, Finishes kinds m u := by
  cases h with
  | ended h hkinds hlast hkeys =>
    refine Or.inl ⟨hkeys, fun heq => Bool.false_ne_true (hdone.symm.trans ?_)⟩
    have hhead : s.tokens.head?.map (·.kind) = some .streamEnd := by
      rw [← hlast, ← hkinds, ← h.kinds, List.getLast?_map, List.getLast?_reverse]
    rw [ScanState.isDone, hhead, decide_eq_true heq]
    rfl
  | step hn hlast hkeys hnext hrest =>
    obtain ⟨u, hu, hhanded, hlt⟩ := hnext s (.refl s)
    exact Or.inr ⟨u, hu, hhanded, hlt, _, hn, hrest s u (.refl s) hu⟩

/-- Looking whether a token can be handed out yet changes nothing but keys. -/
theorem needsMore_alike (hn : ∀ key ∈ s.keys, key.required = false) :
    ∃ more t, needsMore s = .ok (more, t) ∧ s.Alike t ∧ t.handedOut = s.handedOut ∧
      (more = true → s.count ≤ s.handedOut ∨ ∃ key ∈ t.keys, key.possible = true) ∧
      (more = false → s.handedOut < s.count) := by
  unfold needsMore
  rw [get_bind]
  by_cases hle : s.count ≤ s.handedOut
  · rw [if_pos hle]
    exact ⟨true, s, rfl, .refl s, rfl, fun _ => Or.inl hle, fun h => absurd h (by decide)⟩
  · rw [if_neg hle]
    obtain ⟨t, hdrop, ht, hhanded⟩ := dropStaleKeys_alike hn
    rw [bind_of_ok hdrop, get_bind]
    refine ⟨_, t, rfl, ht, hhanded, fun h => Or.inr ?_, fun _ => Nat.lt_of_not_le hle⟩
    obtain ⟨key, hk, hkey⟩ := List.any_eq_true.mp h
    exact ⟨key, hk, (Bool.and_eq_true_iff.mp hkey).1⟩

/-- Reading goes on until a token can be handed out. -/
theorem prepare : ∀ (fuel : Nat) {n : Nat} {s : ScanState}, Finishes kinds n s → n ≤ fuel →
    s.handedOut ≤ s.count → s.isDone = false →
    ∃ t, Scan.prepare fuel s = .ok ((), t) ∧ Finishes kinds n t ∧ t.handedOut = s.handedOut ∧
      s.handedOut < t.count
  | 0, n, s, h, hn, hle, hdone => by
    rcases h.cases_isDone hdone with ⟨-, hne⟩ | ⟨u, -, -, -, m, hm, -⟩
    · exact ⟨s, rfl, h, rfl, Nat.lt_of_le_of_ne hle hne⟩
    · omega
  | fuel + 1, n, s, h, hn, hle, hdone => by
    obtain ⟨more, t, hmore, ht, hhanded, htrue, hfalse⟩ := needsMore_alike h.notRequired
    have hcount : t.count = s.count := by
      obtain ⟨⟨m, keys, rfl⟩, -⟩ := ht
      rfl
    have hdone' : t.isDone = false := by
      obtain ⟨⟨m, keys, rfl⟩, -⟩ := ht
      cases hhanded
      exact hdone
    rw [Scan.prepare, bind_of_ok hmore]
    cases more with
    | false => exact ⟨t, rfl, h.alike ht, hhanded, hcount ▸ hfalse rfl⟩
    | true =>
      rcases (h.alike ht).cases_isDone hdone' with ⟨hkeys, hne⟩ | ⟨u, hnext, hu, hlt, m, hm, hrest⟩
      · rcases htrue rfl with hle' | ⟨key, hk, hpossible⟩
        · omega
        · exact absurd (hkeys key hk) (by rw [hpossible]; decide)
      · have hundone : u.isDone = false := by
          rw [ScanState.isDone, decide_eq_false (by omega), Bool.false_and]
        obtain ⟨v, hv, hfin, hhanded', hlt'⟩ := prepare fuel hrest (by omega) (by omega) hundone
        refine ⟨v, ?_, hfin.mono (Nat.le_of_lt hm), by omega, by omega⟩
        rw [if_pos rfl, bind_of_ok hnext, hv]

/-- All tokens are handed out. -/
theorem tokensFrom : ∀ (m : Nat) {n : Nat} {s : ScanState}, Finishes kinds n s → n ≤ fuel →
    s.handedOut ≤ s.count → s.isDone = false → kinds.length < m + s.handedOut →
    ∃ tokens, Yaml.tokensFrom fuel m s = ⟨tokens, none⟩ ∧ tokens.map (·.kind) = kinds
  | 0, n, s, h, _, hle, _, hm => by
    have hcount := h.count_le
    omega
  | m + 1, n, s, h, hn, hle, hdone, hm => by
    obtain ⟨t, hprepare, ht, hhanded, hlt⟩ := h.prepare fuel hn hle hdone
    let u : ScanState := { t with handedOut := t.handedOut + 1 }
    have hu : Finishes kinds n u := ht.alike ((ScanState.Alike.refl t).handing _)
    have hout : Scan.handOut fuel s = .ok ((), u) := by
      rw [Scan.handOut, bind_of_ok hprepare, get_bind, if_pos (hhanded ▸ hlt)]
      rfl
    rw [Yaml.tokensFrom, hout]
    dsimp only
    cases hd : u.isDone with
    | true =>
      rw [if_pos rfl]
      rw [ScanState.isDone, Bool.and_eq_true, decide_eq_true_eq, beq_iff_eq] at hd
      obtain ⟨hkinds, hlength⟩ := hu.of_head hd.2
      refine ⟨u.given, rfl, ?_⟩
      rw [ScanState.given, hd.1, ← hlength, ← List.length_reverse, List.take_length, hkinds]
    | false =>
      rw [if_neg Bool.false_ne_true]
      have hhanded' : u.handedOut = s.handedOut + 1 := congrArg (· + 1) hhanded
      exact tokensFrom m hu hn (hhanded' ▸ hlt) hd (by omega)

end Finishes
end Yaml
end TypedConfig
