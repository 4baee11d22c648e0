/-
# The order in which decoders are registered

One more decoder takes over a shape only if it claims the shape with a higher
priority than the one picked so far (`best_concat`), so picking is a scan of the
decoders in order of registration that keeps the better one at each step
(`best_eq_foldl`).

What is picked hangs on the decoders of the highest priority alone: it is the
first of them (`firstBest_iff_tier`). Registrations may therefore be reordered as
long as decoders that claim a shape with the same priority stay in order
(`resolve_eq_of_tiers`).

Key definitions: `Registry.better`, `Registry.tier`.
Key theorems: `Registry.best_concat`, `Registry.best_eq_foldl`,
`Registry.firstBest_iff_tier`, `Registry.resolve_eq_of_tiers`,
`Registry.resolve_first_of_highest`.
-/
import TypedConfig.Proofs.Registry

namespace TypedConfig
namespace Registry

variable {α : Type} {shape : Shape α} {d picked : Decoder α} {ds ds' : List (Decoder α)}

/-! ### One more decoder -/

/-- The better of the decoder picked so far and one that is registered after it. -/
def better (shape : Shape α) (picked? : Option (Decoder α)) (d : Decoder α) :
    Option (Decoder α) :=
  if d.supports shape then
    match picked? with
    | some picked => if d.priority ≤ picked.priority then some picked else some d
    | none => some d
  else picked?

theorem FirstBest.concat_keep (h : FirstBest shape ds picked)
    (hd : d.supports shape = true → d.priority ≤ picked.priority) :
    FirstBest shape (ds ++ [d]) picked := by
  obtain ⟨before, after, rfl, hs, hbefore, hafter⟩ := h
  refine ⟨before, after ++ [d], by simp, hs, hbefore, fun e he hes => ?_⟩
  rcases List.mem_append.mp he with he | he
  · exact hafter e he hes
  · rw [List.mem_singleton.mp he] at hes ⊢
    exact hd hes

theorem firstBest_concat_self (hs : d.supports shape = true)
    (h : ∀ e ∈ ds, e.supports shape = true → e.priority < d.priority) :
    FirstBest shape (ds ++ [d]) d :=
  ⟨ds, [], rfl, hs, h, by simp⟩

/-- One more decoder is picked instead if it is better than the one picked so far. -/
theorem best_concat (shape : Shape α) (ds : List (Decoder α)) (d : Decoder α) :
    best shape (ds ++ [d]) = better shape (best shape ds) d := by
  cases hb : best shape ds with
  | none =>
    have hno := best_eq_none_iff.mp hb
    by_cases hs : d.supports shape = true
    · rw [better, if_pos hs, best_eq_some_iff]
      exact firstBest_concat_self hs fun e he hes => by simp [hno e he] at hes
    · rw [better, if_neg hs, best_eq_none_iff]
      simpa [or_imp, forall_and] using ⟨hno, Bool.eq_false_iff.mpr hs⟩
  | some picked =>
    have hpicked := best_eq_some_iff.mp hb
    by_cases hs : d.supports shape = true
    · rw [better, if_pos hs]
      by_cases hle : d.priority ≤ picked.priority
      · rw [if_pos hle, best_eq_some_iff]
        exact hpicked.concat_keep fun _ => hle
      · rw [if_neg hle, best_eq_some_iff]
        refine firstBest_concat_self hs fun e he hes => ?_
        exact Int32.lt_of_le_of_lt (hpicked.le he hes) (Int32.not_le.mp hle)
    · rw [better, if_neg hs, best_eq_some_iff]
      exact hpicked.concat_keep fun h => absurd h hs

theorem foldl_better : ∀ (ds kept : List (Decoder α)),
    ds.foldl (better shape) (best shape kept) = best shape (kept ++ ds)
  | [], kept => by simp
  | d :: ds, kept => by
    rw [List.foldl_cons, ← best_concat, foldl_better ds (kept ++ [d]), List.append_assoc,
      List.singleton_append]

/-- A scan in order of registration that keeps the better decoder ends with the one picked. -/
theorem best_eq_foldl (shape : Shape α) (ds : List (Decoder α)) :
    best shape ds = ds.foldl (better shape) none :=
  (foldl_better ds []).symm

/-! ### Decoders of one priority -/

/-- The decoders that claim the shape with the priority, in order of registration. -/
def tier (shape : Shape α) (priority : Int32) (ds : List (Decoder α)) : List (Decoder α) :=
  ds.filter fun d => d.supports shape && d.priority == priority

theorem mem_tier {priority : Int32} :
    d ∈ tier shape priority ds ↔ d ∈ ds ∧ d.supports shape = true ∧ d.priority = priority := by
  rw [tier, List.mem_filter, Bool.and_eq_true, beq_iff_eq]

/-- The first of the highest priority is the first of its priority, and none claims the shape
with a higher one. -/
theorem firstBest_iff_tier : FirstBest shape ds d ↔
    (tier shape d.priority ds).head? = some d ∧
      ∀ priority, d.priority < priority → tier shape priority ds = [] := by
  constructor
  · intro h
    have hle : ∀ e ∈ ds, e.supports shape = true → e.priority ≤ d.priority := fun e => h.le
    obtain ⟨before, after, rfl, hs, hbefore, -⟩ := h
    constructor
    · rw [tier, List.head?_filter, List.find?_eq_some_iff_append]
      refine ⟨by simp [hs], before, after, rfl, fun e he => ?_⟩
      by_cases hes : e.supports shape = true
      · simp [Int32.ne_of_lt (hbefore e he hes)]
      · simp [hes]
    · intro priority hlt
      refine List.eq_nil_iff_forall_not_mem.mpr fun e he => ?_
      obtain ⟨hm, hes, rfl⟩ := mem_tier.mp he
      exact Int32.not_lt.mpr (hle e hm hes) hlt
  · rintro ⟨hfirst, hhigher⟩
    have hle : ∀ e ∈ ds, e.supports shape = true → e.priority ≤ d.priority := by
      intro e he hes
      rw [← Int32.not_lt]
      intro hlt
      have hm : e ∈ tier shape e.priority ds := mem_tier.mpr ⟨he, hes, rfl⟩
      rw [hhigher e.priority hlt] at hm
      cases hm
    rw [tier, List.head?_filter, List.find?_eq_some_iff_append] at hfirst
    obtain ⟨hd, before, after, rfl, hbefore⟩ := hfirst
    rw [Bool.and_eq_true] at hd
    refine ⟨before, after, rfl, hd.1, fun e he hes => ?_, fun e he hes => hle e (by simp [he]) hes⟩
    have hne : e.priority ≠ d.priority := by simpa [hes] using hbefore e he
    exact Int32.lt_of_le_of_ne (hle e (by simp [he]) hes) hne

theorem best_eq_of_tiers (h : ∀ priority, tier shape priority ds = tier shape priority ds') :
    best shape ds = best shape ds' := by
  have hiff : ∀ d, best shape ds = some d ↔ best shape ds' = some d := by
    intro d
    rw [best_eq_some_iff, best_eq_some_iff, firstBest_iff_tier, firstBest_iff_tier, h]
    simp only [h]
  exact Option.ext hiff

/-! ### Registries -/

theorem decoders_registered (ds : List (Decoder α)) : (zero.registerAll ds).decoders = ds := by
  rw [decoders_registerAll]
  rfl

theorem resolve_eq_error_iff {registry : Registry α} {failures : Failures} :
    registry.resolve shape = .error failures ↔
      (∀ d ∈ registry.decoders, d.supports shape = false) ∧
        failures = .one (unsupported shape) := by
  rw [← best_eq_none_iff, resolve]
  cases best shape registry.decoders with
  | none => simp [Outcome.fail, eq_comm]
  | some d => simp

/-- Registering in an order that leaves the decoders of each priority in order changes
nothing for the shape. -/
theorem resolve_eq_of_tiers (h : ∀ priority, tier shape priority ds = tier shape priority ds') :
    (zero.registerAll ds).resolve shape = (zero.registerAll ds').resolve shape := by
  rw [resolve, resolve, decoders_registered, decoders_registered, best_eq_of_tiers h]

/-- The decoder has a higher priority than the one that is picked for the shape, if there is
one. -/
def Outranked (registry : Registry α) (shape : Shape α) (d : Decoder α) : Prop :=
  ∀ picked, registry.resolve shape = .ok picked → picked.priority < d.priority

theorem decoders_register (registry : Registry α) (d : Decoder α) :
    (registry.register d).decoders = registry.decoders ++ [d] := rfl

theorem resolve_register {registry : Registry α} (hs : d.supports shape = true)
    (h : registry.Outranked shape d) : (registry.register d).resolve shape = .ok d := by
  rw [resolve, decoders_register, best_concat]
  cases hb : best shape registry.decoders with
  | none => simp [better, hs]
  | some picked =>
    have hlt : picked.priority < d.priority := h picked (by rw [resolve, hb])
    simp [better, hs, Int32.not_le.mpr hlt]

theorem resolve_register_of_not {registry : Registry α}
    (h : ¬ (d.supports shape = true ∧ registry.Outranked shape d)) :
    (registry.register d).resolve shape = registry.resolve shape := by
  rw [resolve, resolve, decoders_register, best_concat]
  by_cases hs : d.supports shape = true
  · cases hb : best shape registry.decoders with
    | none =>
      refine absurd ⟨hs, fun picked hp => ?_⟩ h
      rw [resolve, hb] at hp
      cases hp
    | some picked =>
      have hle : d.priority ≤ picked.priority := by
        rw [← Int32.not_lt]
        intro hlt
        refine h ⟨hs, fun other ho => ?_⟩
        rw [resolve, hb] at ho
        cases ho
        exact hlt
      simp [better, hs, hle]
  · simp [better, hs]

/-- One more decoder changes what is picked exactly if it claims the shape and outranks the
decoder picked before. -/
theorem resolve_register_ne_iff {registry : Registry α} :
    (registry.register d).resolve shape ≠ registry.resolve shape ↔
      d.supports shape = true ∧ registry.Outranked shape d := by
  constructor
  · exact fun hne => Classical.byContradiction fun h => hne (resolve_register_of_not h)
  · rintro ⟨hs, h⟩ heq
    rw [resolve_register hs h] at heq
    exact Int32.lt_irrefl (h d heq.symm)

/-- **The first decoder of the highest priority is picked.** Whatever decoders are registered,
a shape that none of them claims is refused by its name, as a record or otherwise; for any
other shape the decoder is picked that claims it with a higher priority than those before it
and no lower one than those after it. So the registrations may be reordered as long as those
of one priority for the shape stay in order; and one more decoder changes what is picked
exactly if it claims the shape and has a higher priority than the decoder picked before, if
there was one, and then it is picked itself. -/
theorem resolve_first_of_highest (shape : Shape α) (ds : List (Decoder α)) :
    (∀ failures, (zero.registerAll ds).resolve shape = .error failures ↔
      (∀ d ∈ ds, d.supports shape = false) ∧
        failures = .one (if shape.isRecord then .noRecordDecoder shape.text
          else .noDecoder shape.text)) ∧
      (∀ d, (zero.registerAll ds).resolve shape = .ok d ↔ FirstBest shape ds d) ∧
      (∀ ds', (∀ priority, tier shape priority ds = tier shape priority ds') →
        (zero.registerAll ds').resolve shape = (zero.registerAll ds).resolve shape) ∧
      ∀ d, (((zero.registerAll ds).register d).resolve shape ≠
          (zero.registerAll ds).resolve shape ↔
        d.supports shape = true ∧ (zero.registerAll ds).Outranked shape d) ∧
        (((zero.registerAll ds).register d).resolve shape ≠
            (zero.registerAll ds).resolve shape →
          ((zero.registerAll ds).register d).resolve shape = .ok d) := by
  refine ⟨fun failures => ?_, fun d => ?_, fun ds' h => ?_, fun d => ⟨resolve_register_ne_iff, ?_⟩⟩
  · rw [resolve_eq_error_iff, decoders_registered]
    rfl
  · rw [resolve_eq_ok_iff, decoders_registered]
  · exact (resolve_eq_of_tiers h).symm
  · intro hne
    obtain ⟨hs, h⟩ := resolve_register_ne_iff.mp hne
    exact resolve_register hs h

/-- A decoder of the application for labels. -/
def labelDecoder (name : String) (priority : Int32) : Decoder Unit :=
  .custom ⟨name, (·.isNamed "Label"), priority, false, fun _ _ _ _ => .ok (.string name)⟩

/-- Decoders for labels at both ends of the priorities, the highest one given twice, with a
decoder for texts among them. -/
def labelDecoders : List (Decoder Unit) :=
  [labelDecoder "last" Int32.minValue, labelDecoder "a" Int32.maxValue, .builtin .string,
    labelDecoder "b" Int32.maxValue]

/-- The same decoders, those of the highest priority in the same order. -/
def labelDecoders' : List (Decoder Unit) :=
  [labelDecoder "a" Int32.maxValue, labelDecoder "b" Int32.maxValue,
    labelDecoder "last" Int32.minValue, .builtin .string]

theorem tier_labelDecoders (priority : Int32) :
    tier (.leaf (.named "Label") false) priority labelDecoders =
      tier (.leaf (.named "Label") false) priority labelDecoders' := by
  have hlow : Int32.minValue ≠ Int32.maxValue := by decide
  by_cases hlo : Int32.minValue = priority
  · subst hlo
    rfl
  · by_cases hhi : Int32.maxValue = priority
    · subst hhi
      rfl
    · simp [tier, labelDecoders, labelDecoders', labelDecoder, Decoder.supports, Decoder.priority,
        Builtin.supports, hlo, hhi]

/-- Of the two decoders for labels with the highest priority the first one is picked, in either
order, and a third one with that priority changes nothing. -/
theorem resolve_labels :
    (∀ priority, tier (.leaf (.named "Label") false) priority labelDecoders =
        tier (.leaf (.named "Label") false) priority labelDecoders') ∧
      (zero.registerAll labelDecoders).resolve (.leaf (.named "Label") false) =
        .ok (labelDecoder "a" Int32.maxValue) ∧
      (zero.registerAll labelDecoders').resolve (.leaf (.named "Label") false) =
        .ok (labelDecoder "a" Int32.maxValue) ∧
      ((zero.registerAll labelDecoders).register (labelDecoder "c" Int32.maxValue)).resolve
        (.leaf (.named "Label") false) = .ok (labelDecoder "a" Int32.maxValue) := by
  obtain ⟨-, hpicked, hreordered, hmore⟩ :=
    resolve_first_of_highest (.leaf (.named "Label") false) labelDecoders
  have hfirst : (zero.registerAll labelDecoders).resolve (.leaf (.named "Label") false) =
      .ok (labelDecoder "a" Int32.maxValue) := by
    refine (hpicked _).mpr ⟨[labelDecoder "last" Int32.minValue],
      [.builtin .string, labelDecoder "b" Int32.maxValue], rfl, rfl, ?_, ?_⟩
    · rintro e he -
      rw [List.mem_singleton.mp he]
      exact (by decide : Int32.minValue < Int32.maxValue)
    · rintro e he -
      rcases List.mem_cons.mp he with rfl | he
      · exact (by decide : (0 : Int32) ≤ Int32.maxValue)
      · rw [List.mem_singleton.mp he]
        exact Int32.le_refl _
  have hsame := hreordered labelDecoders' tier_labelDecoders
  have hkept : ((zero.registerAll labelDecoders).register
      (labelDecoder "c" Int32.maxValue)).resolve (.leaf (.named "Label") false) =
        (zero.registerAll labelDecoders).resolve (.leaf (.named "Label") false) := by
    refine Classical.byContradiction fun hne => ?_
    obtain ⟨-, houtranked⟩ := (hmore _).1.mp hne
    have hlt := houtranked _ hfirst
    exact Int32.lt_irrefl hlt
  exact ⟨tier_labelDecoders, hfirst, hsame.trans hfirst, hkept.trans hfirst⟩

end Registry
end TypedConfig
