/-
# Two outcomes beside each other

Two decodings are compared by their outcomes: either both give results, which are
related, or both fail, and their failures are (`Outcome.Compared`). If failures
that are related piece by piece are related when they are put together, sequences
of outcomes compare wherever their parts do (`Compared.sequence`), so that what is
said of the parts passes on to the whole. The parts may also be compared in another
order, if the order of failures makes no difference (`Compared.sequence_matched`).

Key definitions: `Outcome.Compared`, `Outcome.Additive`.
Key theorems: `Outcome.Compared.results_or_failures`, `Outcome.Compared.sequence`,
`Outcome.Compared.sequence_matched`, `Outcome.mapIdx_ok_of_beside`.
-/
import TypedConfig.Proofs.Matching
import TypedConfig.Proofs.Outcome

namespace TypedConfig

namespace Outcome

variable {α β γ δ : Type} {r : α → β → Prop} {s s' : List Failure → List Failure → Prop}

/-- Both outcomes are results that are related by `r`, or both are failures that are related
by `s`. -/
inductive Compared (r : α → β → Prop) (s : List Failure → List Failure → Prop) :
    Outcome α → Outcome β → Prop
  | ok {a : α} {b : β} (h : r a b) : Compared r s (.ok a) (.ok b)
  | error {fs gs : Failures} (h : s fs.toList gs.toList) : Compared r s (.error fs) (.error gs)

/-- Related failures stay related when they are put together. -/
structure Additive (s : List Failure → List Failure → Prop) : Prop where
  nil : s [] []
  append : ∀ {fs gs fs' gs' : List Failure}, s fs gs → s fs' gs' → s (fs ++ fs') (gs ++ gs')

namespace Compared

variable {o : Outcome α} {o' : Outcome β}

theorem results_or_failures (h : Compared r s o o') :
    (∃ a b, o = .ok a ∧ o' = .ok b ∧ r a b) ∨
      ∃ fs gs : Failures, o = .error fs ∧ o' = .error gs ∧ s fs.toList gs.toList := by
  cases h with
  | ok h => exact Or.inl ⟨_, _, rfl, rfl, h⟩
  | error h => exact Or.inr ⟨_, _, rfl, rfl, h⟩

theorem fail {failure failure' : Failure} (h : s [failure] [failure']) :
    Compared r s (.fail failure) (.fail failure') :=
  .error h

theorem imp {r' : α → β → Prop} (h : Compared r s o o') (hr : ∀ a b, r a b → r' a b)
    (hs : ∀ fs gs, s fs gs → s' fs gs) : Compared r' s' o o' := by
  cases h with
  | ok h => exact .ok (hr _ _ h)
  | error h => exact .error (hs _ _ h)

/-- An outcome compares with itself if both relations are reflexive. -/
theorem refl {r : α → α → Prop} (hr : ∀ a, r a a) (hs : ∀ fs, s fs fs) (o : Outcome α) :
    Compared r s o o := by
  cases o with
  | ok a => exact .ok (hr a)
  | error fs => exact .error (hs _)

theorem map {r' : γ → δ → Prop} {f : α → γ} {g : β → δ} (h : Compared r s o o')
    (hfg : ∀ a b, r a b → r' (f a) (g b)) : Compared r' s (o.map f) (o'.map g) := by
  cases h with
  | ok h => exact .ok (hfg _ _ h)
  | error h => exact .error h

theorem wrap {cause cause' : Failures → Failure} (h : Compared r s o o')
    (hcause : ∀ fs gs : Failures, s fs.toList gs.toList → s' [cause fs] [cause' gs]) :
    Compared r s' (o.wrap cause) (o'.wrap cause') := by
  cases h with
  | ok h => exact .ok h
  | error h => exact .error (hcause _ _ h)

/-- Sequences compare if their parts do, one by one. -/
theorem sequence (hs : Additive s) {os : List (Outcome α)} {os' : List (Outcome β)}
    (h : List.Forall₂ (Compared r s) os os') :
    Compared (List.Forall₂ r) s (Outcome.sequence os) (Outcome.sequence os') := by
  induction h with
  | nil => exact .ok .nil
  | @cons o o' os os' h _ ih =>
    rw [Outcome.sequence_cons, Outcome.sequence_cons]
    generalize Outcome.sequence os = rest at ih ⊢
    generalize Outcome.sequence os' = rest' at ih ⊢
    cases h with
    | ok h =>
      cases ih with
      | ok ih => exact .ok (.cons h ih)
      | error ih => exact .error ih
    | error h =>
      cases ih with
      | ok ih => exact .error h
      | error ih => exact .error (hs.append h ih)

end Compared

/-! ### The same results -/

/-- Parts that give the same results as others beside them give the same results together. -/
theorem mapIdx_ok_of_beside {r : α → γ → Prop} {parts : List α} {others : List γ}
    (hr : List.Forall₂ r parts others) : ∀ {results : List β} {outcome : Nat → α → Outcome β}
    {outcome' : Nat → γ → Outcome β}, parts.mapIdx outcome = results.map .ok →
      (∀ i part other result, r part other → result ∈ results →
        outcome i part = .ok result → outcome' i other = .ok result) →
      others.mapIdx outcome' = results.map .ok := by
  induction hr with
  | nil => exact fun h _ => h
  | @cons part other parts others hp _ ih =>
    intro results outcome outcome' h hstep
    cases results with
    | nil =>
      rw [List.mapIdx_cons] at h
      cases h
    | cons result results =>
      rw [List.mapIdx_cons, List.map_cons, List.cons.injEq] at h
      rw [List.mapIdx_cons, List.map_cons, hstep 0 part other result hp List.mem_cons_self h.1]
      refine congrArg _ (ih h.2 fun i p o r hpo hm => ?_)
      exact hstep (i + 1) p o r hpo (List.mem_cons_of_mem _ hm)

theorem mapIdx_ok_of_mem {parts : List α} {results : List β}
    {outcome outcome' : Nat → α → Outcome β}
    (h : parts.mapIdx outcome = results.map .ok)
    (hstep : ∀ i, ∀ part ∈ parts, ∀ result ∈ results,
      outcome i part = .ok result → outcome' i part = .ok result) :
    parts.mapIdx outcome' = results.map .ok :=
  mapIdx_ok_of_beside (forall₂_self parts) h fun i part _ result ⟨he, hm⟩ hr ho =>
    he ▸ hstep i part hm result hr ho

/-! ### Another order -/

theorem exists_results_of_perm {os os' : List (Outcome α)} (h : os.Perm os') {as : List α}
    (ho : sequence os = .ok as) : ∃ as', sequence os' = .ok as' ∧ as.Perm as' := by
  rw [sequence_eq_ok_iff] at ho
  subst ho
  obtain ⟨as', rfl⟩ : ∃ as' : List α, os' = as'.map .ok := by
    refine exists_results fun o hm => ?_
    obtain ⟨a, -, rfl⟩ := List.mem_map.mp (h.symm.subset hm)
    exact ⟨a, rfl⟩
  refine ⟨as', sequence_map_ok as', ?_⟩
  exact (List.map_perm_map_iff fun _ _ => Except.ok.inj).mp h

theorem exists_failures_of_perm {os os' : List (Outcome α)} (h : os.Perm os') {fs : Failures}
    (ho : sequence os = .error fs) :
    ∃ gs : Failures, sequence os' = .error gs ∧ fs.toList.Perm gs.toList := by
  have hperm : (sequence os).failures.Perm (sequence os').failures := by
    rw [failures_sequence, failures_sequence]
    exact h.flatMap_right failures
  rw [ho, failures_error] at hperm
  cases ho' : sequence os' with
  | ok as =>
    rw [ho'] at hperm
    exact absurd hperm.eq_nil fs.toList_ne_nil
  | error gs =>
    rw [ho'] at hperm
    exact ⟨gs, rfl, hperm⟩

/-- Sequences whose parts match in some order have results that match in some order. -/
theorem Compared.sequence_matched (hs : Additive s)
    (hperm : ∀ fs gs gs' : List Failure, s fs gs → gs.Perm gs' → s fs gs')
    {os : List (Outcome α)} {os' : List (Outcome β)} (h : Matched (Compared r s) os os') :
    Compared (Matched r) s (Outcome.sequence os) (Outcome.sequence os') := by
  obtain ⟨middle, hr, hp⟩ := h
  rcases (Compared.sequence hs hr).results_or_failures with
    ⟨as, bs, ho, hm, has⟩ | ⟨fs, gs, ho, hm, hfs⟩
  · obtain ⟨bs', ho', hbs⟩ := exists_results_of_perm hp hm
    rw [ho, ho']
    exact .ok ⟨bs, has, hbs⟩
  · obtain ⟨gs', ho', hgs⟩ := exists_failures_of_perm hp hm
    rw [ho, ho']
    exact .error (hperm _ _ _ hfs hgs)

end Outcome
end TypedConfig
