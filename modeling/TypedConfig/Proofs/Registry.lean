/-
# The decoder that a registry picks

A registry picks, of the decoders that claim a shape, the first of the highest
priority: those before it have a lower one, those after it none that is higher
(`best_eq_some_iff`). So decoders that are registered later change nothing for a
shape as long as none of them has a higher priority than the one picked before
(`resolve_registerAll`).

Key definitions: `Registry.registerAll`, `Registry.Defers`.
Key theorems: `Registry.best_eq_none_iff`, `Registry.best_eq_some_iff`,
`Registry.resolve_registerAll`.
-/
import TypedConfig.Registry

namespace TypedConfig
namespace Registry

variable {α : Type} {shape : Shape α}

/-! ### The first of the highest priority -/

theorem best_cons_of_none {d : Decoder α} {ds : List (Decoder α)}
    (h : d.supports shape = true) (hds : best shape ds = none) :
    best shape (d :: ds) = some d := by
  simp [best, h, hds]

theorem best_cons_of_some {d e : Decoder α} {ds : List (Decoder α)}
    (h : d.supports shape = true) (hds : best shape ds = some e) :
    best shape (d :: ds) = if d.priority < e.priority then some e else some d := by
  simp [best, h, hds]

theorem best_cons_of_not_supports {d : Decoder α} {ds : List (Decoder α)}
    (h : d.supports shape = false) : best shape (d :: ds) = best shape ds := by
  rw [best, h, if_neg Bool.false_ne_true]

/-- No decoder is picked exactly if none claims the shape. -/
theorem best_eq_none_iff : ∀ {ds : List (Decoder α)},
    best shape ds = none ↔ ∀ d ∈ ds, d.supports shape = false
  | [] => by simp [best]
  | d :: ds => by
    have ih : best shape ds = none ↔ ∀ d ∈ ds, d.supports shape = false := best_eq_none_iff
    by_cases hd : d.supports shape = true
    · have hsome : best shape (d :: ds) ≠ none := by
        cases hds : best shape ds with
        | none => simp [best_cons_of_none hd hds]
        | some e =>
          rw [best_cons_of_some hd hds]
          split <;> simp
      simp [hsome, hd]
    · rw [Bool.not_eq_true] at hd
      simp [best_cons_of_not_supports hd, ih, hd]

/-- The decoder claims the shape; those that do and stand before it in the list have a lower
priority, and those that do and stand after it none that is higher. -/
def FirstBest (shape : Shape α) (ds : List (Decoder α)) (d : Decoder α) : Prop :=
  ∃ before after, ds = before ++ d :: after ∧ d.supports shape = true ∧
    (∀ e ∈ before, e.supports shape = true → e.priority < d.priority) ∧
    ∀ e ∈ after, e.supports shape = true → e.priority ≤ d.priority

theorem FirstBest.mem {ds : List (Decoder α)} {d : Decoder α} (h : FirstBest shape ds d) :
    d ∈ ds := by
  obtain ⟨before, after, rfl, -⟩ := h
  simp

theorem FirstBest.supports {ds : List (Decoder α)} {d : Decoder α} (h : FirstBest shape ds d) :
    d.supports shape = true := by
  obtain ⟨before, after, -, hs, -⟩ := h
  exact hs

theorem FirstBest.le {ds : List (Decoder α)} {d e : Decoder α} (h : FirstBest shape ds d)
    (he : e ∈ ds) (hs : e.supports shape = true) : e.priority ≤ d.priority := by
  obtain ⟨before, after, rfl, -, hbefore, hafter⟩ := h
  rcases List.mem_append.mp he with he | he
  · exact Int32.le_of_lt (hbefore e he hs)
  · rcases List.mem_cons.mp he with rfl | he
    · exact Int32.le_refl _
    · exact hafter e he hs

theorem firstBest_of_best : ∀ {ds : List (Decoder α)} {d : Decoder α},
    best shape ds = some d → FirstBest shape ds d
  | [], d, h => by simp [best] at h
  | first :: ds, d, h => by
    by_cases hf : first.supports shape = true
    · cases hb : best shape ds with
      | none =>
        -- nothing else claims the shape
        have hnone := best_eq_none_iff.mp hb
        have hd : first = d := by simpa [best_cons_of_none hf hb] using h
        subst hd
        refine ⟨[], ds, rfl, hf, by simp, fun e he hs => ?_⟩
        simp [hnone e he] at hs
      | some rest =>
        have ih : FirstBest shape ds rest := firstBest_of_best hb
        rw [best_cons_of_some hf hb] at h
        by_cases hlt : first.priority < rest.priority
        · have hd : rest = d := by simpa [hlt] using h
          subst hd
          obtain ⟨before, after, rfl, hs, hbefore, hafter⟩ := ih
          refine ⟨first :: before, after, rfl, hs, fun e he hes => ?_, hafter⟩
          rcases List.mem_cons.mp he with rfl | he
          · exact hlt
          · exact hbefore e he hes
        · have hd : first = d := by simpa [hlt] using h
          subst hd
          refine ⟨[], ds, rfl, hf, by simp, fun e he hes => ?_⟩
          exact Int32.le_trans (ih.le he hes) (Int32.not_lt.mp hlt)
    · rw [Bool.not_eq_true] at hf
      rw [best_cons_of_not_supports hf] at h
      obtain ⟨before, after, rfl, hs, hbefore, hafter⟩ := firstBest_of_best h
      refine ⟨first :: before, after, rfl, hs, fun e he hes => ?_, hafter⟩
      rcases List.mem_cons.mp he with rfl | he
      · simp [hf] at hes
      · exact hbefore e he hes

/-- Two decoders that are both the first of the highest priority are one. -/
theorem FirstBest.unique {ds : List (Decoder α)} {d e : Decoder α} (hd : FirstBest shape ds d)
    (he : FirstBest shape ds e) : d = e := by
  obtain ⟨before, after, rfl, hs, hbefore, hafter⟩ := hd
  obtain ⟨before', after', heq, hs', hbefore', hafter'⟩ := he
  rcases List.append_eq_append_iff.mp heq with ⟨more, rfl, hrest⟩ | ⟨more, rfl, hrest⟩
  · cases more with
    | nil => exact (List.cons.inj hrest).1
    | cons x more =>
      -- then `d` stands before `e`
      rw [List.cons_append, List.cons.injEq] at hrest
      obtain ⟨rfl, rfl⟩ := hrest
      have hlt : d.priority < e.priority := hbefore' d (by simp) hs
      have hle : e.priority ≤ d.priority := hafter e (by simp) hs'
      exact absurd (Int32.lt_of_lt_of_le hlt hle) Int32.lt_irrefl
  · cases more with
    | nil => exact (List.cons.inj hrest).1.symm
    | cons x more =>
      rw [List.cons_append, List.cons.injEq] at hrest
      obtain ⟨rfl, rfl⟩ := hrest
      have hlt : e.priority < d.priority := hbefore e (by simp) hs'
      have hle : d.priority ≤ e.priority := hafter' d (by simp) hs
      exact absurd (Int32.lt_of_lt_of_le hlt hle) Int32.lt_irrefl

/-- A registry picks the first of the decoders of highest priority. -/
theorem best_eq_some_iff {ds : List (Decoder α)} {d : Decoder α} :
    best shape ds = some d ↔ FirstBest shape ds d := by
  constructor
  · exact firstBest_of_best
  · intro h
    cases hb : best shape ds with
    | none =>
      obtain ⟨before, after, rfl, hs, -⟩ := h
      have hno := best_eq_none_iff.mp hb d (by simp)
      simp [hno] at hs
    | some e => rw [(firstBest_of_best hb).unique h]

theorem resolve_eq_ok_iff {registry : Registry α} {d : Decoder α} :
    registry.resolve shape = .ok d ↔ FirstBest shape registry.decoders d := by
  rw [← best_eq_some_iff, resolve]
  cases best shape registry.decoders with
  | none => simp [Outcome.fail]
  | some e => simp

/-! ### Decoders that are registered later -/

/-- The registry with further decoders, registered one after another. -/
def registerAll (registry : Registry α) (added : List (Decoder α)) : Registry α :=
  added.foldl register registry

theorem decoders_registerAll : ∀ (added : List (Decoder α)) (registry : Registry α),
    (registry.registerAll added).decoders = registry.decoders ++ added
  | [], registry => by simp [registerAll]
  | d :: added, registry => by
    have ih := decoders_registerAll added (registry.register d)
    calc (registry.registerAll (d :: added)).decoders
        = (registry.register d).decoders ++ added := ih
      _ = registry.decoders ++ d :: added := by simp [register]

/-- Each of the decoders leaves the shape alone, or else has no higher priority than the one
that the registry picks for it. -/
def Defers (registry : Registry α) (added : List (Decoder α)) (shape : Shape α) : Prop :=
  ∀ d ∈ added, d.supports shape = true →
    ∃ picked, registry.resolve shape = .ok picked ∧ d.priority ≤ picked.priority

/-- Decoders that defer for a shape change nothing for it. -/
theorem resolve_registerAll {registry : Registry α} {added : List (Decoder α)}
    (h : registry.Defers added shape) :
    (registry.registerAll added).resolve shape = registry.resolve shape := by
  have hbest : best shape (registry.decoders ++ added) = best shape registry.decoders := by
    cases hb : best shape registry.decoders with
    | none =>
      rw [best_eq_none_iff] at hb ⊢
      intro d hd
      rcases List.mem_append.mp hd with hd | hd
      · exact hb d hd
      · rw [← Bool.not_eq_true]
        intro hs
        obtain ⟨picked, hp, -⟩ := h d hd hs
        rw [resolve, best_eq_none_iff.mpr hb] at hp
        cases hp
    | some picked =>
      rw [best_eq_some_iff] at hb ⊢
      have hpicked : registry.resolve shape = .ok picked := resolve_eq_ok_iff.mpr hb
      obtain ⟨before, after, hds, hs, hbefore, hafter⟩ := hb
      refine ⟨before, after ++ added, by simp [hds], hs, hbefore, fun e he hes => ?_⟩
      rcases List.mem_append.mp he with he | he
      · exact hafter e he hes
      · obtain ⟨other, ho, hle⟩ := h e he hes
        rw [hpicked] at ho
        cases ho
        exact hle
  rw [resolve, resolve, decoders_registerAll, hbest]

end Registry
end TypedConfig
