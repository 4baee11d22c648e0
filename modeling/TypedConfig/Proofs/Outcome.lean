/-
# The laws of gathering failures

An outcome is told by its result or by the list of its failures. A sequence is
gathered by zipping one part after another to those in front
(`sequence_eq_foldl`), so it may be gathered in two pieces (`sequence_append`). It
succeeds exactly if every part does, with all results in order
(`sequence_eq_ok_iff`); otherwise it fails with the failures of all parts in
order (`sequence_eq_error_iff`). Wrapping leaves one failure, which holds all the
others.

Key definitions: `Outcome.failures`, `Outcome.zipAppend`, `Outcome.failuresUnder`.
Key theorems: `Outcome.sequence_eq_foldl`, `Outcome.sequence_append`,
`Outcome.failures_sequence`, `Outcome.sequence_eq_ok_iff`,
`Outcome.sequence_eq_error_iff`, `Outcome.gather_eq_error_iff`.
-/
import TypedConfig.Outcome

namespace TypedConfig

namespace NonEmpty

variable {α : Type}

theorem toList_injective {xs ys : NonEmpty α} (h : xs.toList = ys.toList) : xs = ys := by
  obtain ⟨x, xs⟩ := xs
  obtain ⟨y, ys⟩ := ys
  simpa [toList] using h

end NonEmpty

namespace Outcome

variable {α β : Type}

/-- The failures of an outcome in order; none if it is a result. -/
def failures : Outcome α → List Failure
  | .ok _ => []
  | .error fs => fs.toList

/-- What a named part brings to the failures of the whole: its own failures, unchanged,
under its name. -/
def failuresUnder (name : String) : Outcome α → List Failure
  | .ok _ => []
  | .error fs => [.field name fs]

@[simp] theorem failures_ok (a : α) : failures (.ok a : Outcome α) = [] := rfl

@[simp] theorem failures_error (fs : Failures) : failures (.error fs : Outcome α) = fs.toList := rfl

theorem mem_failuresUnder {name : String} {o : Outcome α} {failure : Failure} :
    failure ∈ o.failuresUnder name ↔ ∃ fs, o = .error fs ∧ failure = .field name fs := by
  cases o <;> simp [failuresUnder]

theorem eq_error_iff_failures {o : Outcome α} {fs : Failures} :
    o = .error fs ↔ o.failures = fs.toList := by
  cases o with
  | ok a => simpa using Ne.symm fs.toList_ne_nil
  | error gs =>
    constructor
    · intro h
      cases h
      rfl
    · intro h
      rw [NonEmpty.toList_injective h]

/-! ### One behind the other -/

/-- The results of two parts one behind the other, or the failures of both. -/
def zipAppend (as bs : Outcome (List α)) : Outcome (List α) :=
  (zip as bs).map fun p => p.1 ++ p.2

theorem failures_zipAppend (as bs : Outcome (List α)) :
    (zipAppend as bs).failures = as.failures ++ bs.failures := by
  cases as <;> cases bs <;> simp [zipAppend, zip, Except.map]

theorem zipAppend_eq_ok_iff {as bs : Outcome (List α)} {cs : List α} :
    zipAppend as bs = .ok cs ↔ ∃ xs ys, as = .ok xs ∧ bs = .ok ys ∧ xs ++ ys = cs := by
  cases as <;> cases bs <;> simp [zipAppend, zip, Except.map]

theorem ok_nil_zipAppend (as : Outcome (List α)) : zipAppend (.ok []) as = as := by
  cases as <;> simp [zipAppend, zip, Except.map]

theorem zipAppend_ok_nil (as : Outcome (List α)) : zipAppend as (.ok []) = as := by
  cases as <;> simp [zipAppend, zip, Except.map]

theorem zipAppend_assoc (as bs cs : Outcome (List α)) :
    zipAppend (zipAppend as bs) cs = zipAppend as (zipAppend bs cs) := by
  cases as <;> cases bs <;> cases cs <;>
    simp [zipAppend, zip, Except.map, NonEmpty.append_assoc]

/-- Results with that of one more part behind them, or the failures of all parts. -/
def zipSnoc (as : Outcome (List α)) (o : Outcome α) : Outcome (List α) :=
  (zip as o).map fun p => p.1 ++ [p.2]

theorem zipSnoc_eq_zipAppend (as : Outcome (List α)) (o : Outcome α) :
    zipSnoc as o = zipAppend as (o.map ([·])) := by
  cases as <;> cases o <;> rfl

/-! ### Sequences -/

/-- Gathering one more outcome is zipping it with what was gathered. -/
theorem outcome_add (gathering : Gathering α) (o : Outcome α) :
    (gathering.add o).outcome = zipSnoc gathering.outcome o := by
  obtain ⟨results, failures?⟩ := gathering
  cases o <;> cases failures? <;> simp [Gathering.add, Gathering.outcome, zipSnoc, zip, Except.map]

theorem outcome_foldl_add : ∀ (os : List (Outcome α)) (gathering : Gathering α),
    (os.foldl Gathering.add gathering).outcome = os.foldl zipSnoc gathering.outcome
  | [], _ => rfl
  | o :: os, gathering => by
    rw [List.foldl_cons, List.foldl_cons, outcome_foldl_add os, outcome_add]

/-- A sequence is zipped from the left, one part after another. -/
theorem sequence_eq_foldl (os : List (Outcome α)) : sequence os = os.foldl zipSnoc (.ok []) :=
  outcome_foldl_add os .start

/-- What is zipped to the parts in front may be gathered on its own. -/
theorem foldl_zipSnoc : ∀ (os : List (Outcome α)) (as : Outcome (List α)),
    os.foldl zipSnoc as = zipAppend as (sequence os)
  | [], as => (zipAppend_ok_nil as).symm
  | o :: os, as => by
    have ih := foldl_zipSnoc os
    have hcons : sequence (o :: os) = zipAppend (o.map ([·])) (sequence os) := by
      rw [sequence_eq_foldl, List.foldl_cons, ih, zipSnoc_eq_zipAppend, ok_nil_zipAppend]
    calc (o :: os).foldl zipSnoc as
        = zipAppend (zipSnoc as o) (sequence os) := ih _
      _ = zipAppend as (zipAppend (o.map ([·])) (sequence os)) := by
        rw [zipSnoc_eq_zipAppend, zipAppend_assoc]
      _ = zipAppend as (sequence (o :: os)) := by rw [hcons]

/-- A row of outcomes comes to what its two parts come to, one behind the other. -/
theorem sequence_append (os os' : List (Outcome α)) :
    sequence (os ++ os') = zipAppend (sequence os) (sequence os') := by
  rw [sequence_eq_foldl, List.foldl_append, ← sequence_eq_foldl, foldl_zipSnoc]

theorem sequence_singleton (o : Outcome α) : sequence [o] = o.map ([·]) := by
  cases o <;> rfl

theorem sequence_cons (o : Outcome α) (os : List (Outcome α)) :
    sequence (o :: os) = zipAppend (o.map ([·])) (sequence os) := by
  rw [← List.singleton_append, sequence_append, sequence_singleton]

/-- A sequence reports the failures of every part, in the order of the parts. -/
theorem failures_sequence : ∀ os : List (Outcome α),
    (sequence os).failures = os.flatMap failures
  | [] => rfl
  | o :: os => by
    have ih := failures_sequence os
    rw [sequence_cons, failures_zipAppend, ih, List.flatMap_cons]
    cases o <;> rfl

theorem sequence_map_ok : ∀ as : List α, sequence (as.map .ok) = .ok as
  | [] => rfl
  | a :: as => by
    rw [List.map_cons, sequence_cons, sequence_map_ok as]
    rfl

/-- A sequence has results exactly if every part has one. -/
theorem sequence_eq_ok_iff : ∀ {os : List (Outcome α)} {as : List α},
    sequence os = .ok as ↔ os = as.map .ok := by
  intro os as
  constructor
  · intro h
    induction os generalizing as with
    | nil =>
      cases h
      rfl
    | cons o os ih =>
      rw [sequence_cons, zipAppend_eq_ok_iff] at h
      obtain ⟨xs, ys, ho, hos, rfl⟩ := h
      cases o with
      | error fs => cases ho
      | ok a =>
        cases ho
        rw [ih hos]
        rfl
  · rintro rfl
    exact sequence_map_ok as

/-- A sequence fails exactly if some part does, with all that the parts report. -/
theorem sequence_eq_error_iff {os : List (Outcome α)} {fs : Failures} :
    sequence os = .error fs ↔ fs.toList = os.flatMap failures := by
  rw [eq_error_iff_failures, failures_sequence, eq_comm]

/-! ### Parts that all succeed -/

section parts

variable {outcome : Nat → α → Outcome β}

theorem exists_part_of_mem {parts : List α} {results : List β}
    (h : parts.mapIdx outcome = results.map .ok) {r : β} (hr : r ∈ results) :
    ∃ i, ∃ part ∈ parts, outcome i part = .ok r := by
  have hm : Except.ok r ∈ parts.mapIdx outcome := h ▸ List.mem_map.mpr ⟨r, hr, rfl⟩
  obtain ⟨i, hi, he⟩ := List.mem_mapIdx.mp hm
  exact ⟨i, parts[i], List.getElem_mem hi, he⟩

/-- Every part has a result at its place. -/
theorem exists_result_of_getElem? {parts : List α} {results : List β}
    (h : parts.mapIdx outcome = results.map .ok) {i : Nat} {part : α} (hi : parts[i]? = some part) :
    ∃ r, (part, r) ∈ parts.zip results ∧ outcome i part = .ok r := by
  have hr : (parts.mapIdx outcome)[i]? = (results.map .ok)[i]? := by rw [h]
  rw [List.getElem?_mapIdx, List.getElem?_map, hi] at hr
  obtain ⟨r, hri, he⟩ := Option.map_eq_some_iff.mp hr.symm
  exact ⟨r, List.mem_of_getElem? (List.getElem?_zip_eq_some.mpr ⟨hi, hri⟩), he.symm⟩

theorem exists_results {os : List (Outcome α)} (h : ∀ o ∈ os, ∃ a, o = .ok a) :
    ∃ as : List α, os = as.map .ok := by
  induction os with
  | nil => exact ⟨[], rfl⟩
  | cons o os ih =>
    obtain ⟨a, rfl⟩ := h o List.mem_cons_self
    obtain ⟨as, rfl⟩ := ih fun o ho => h o (List.mem_cons_of_mem _ ho)
    exact ⟨a :: as, rfl⟩

/-- There are results of a sequence exactly if every part has one. -/
theorem exists_ok_sequence_iff (os : List (Outcome α)) :
    (∃ as, sequence os = .ok as) ↔ ∀ o ∈ os, ∃ a, o = .ok a := by
  simp only [sequence_eq_ok_iff]
  constructor
  · rintro ⟨as, rfl⟩ o ho
    obtain ⟨a, -, rfl⟩ := List.mem_map.mp ho
    exact ⟨a, rfl⟩
  · exact exists_results

theorem exists_outcome_of_mem_zip {parts : List α} {results : List β}
    (h : parts.mapIdx outcome = results.map .ok) {p : α × β} (hp : p ∈ parts.zip results) :
    ∃ i, outcome i p.1 = .ok p.2 := by
  obtain ⟨i, hi⟩ := List.mem_iff_getElem?.mp hp
  obtain ⟨h1, h2⟩ := List.getElem?_zip_eq_some.mp hi
  have hr : (parts.mapIdx outcome)[i]? = (results.map .ok)[i]? := by rw [h]
  rw [List.getElem?_mapIdx, List.getElem?_map, h1, h2] at hr
  exact ⟨i, Option.some.inj hr⟩

/-- What each part passes on to its result, all parts together pass on in order. -/
theorem map_results_eq {γ : Type} {f : β → γ} {g : α → γ}
    (hfg : ∀ i part r, outcome i part = .ok r → f r = g part) : ∀ {parts : List α}
    {results : List β}, parts.mapIdx outcome = results.map .ok → results.map f = parts.map g := by
  intro parts results h
  have hlen : parts.length = results.length := by simpa using congrArg List.length h
  apply List.ext_getElem?
  intro i
  have hi : (parts.mapIdx outcome)[i]? = (results.map .ok)[i]? := by rw [h]
  rw [List.getElem?_mapIdx, List.getElem?_map] at hi
  rw [List.getElem?_map, List.getElem?_map]
  cases hp : parts[i]? with
  | none =>
    rw [hp] at hi
    rw [Option.map_eq_none_iff.mp hi.symm]
    rfl
  | some part =>
    rw [hp] at hi
    obtain ⟨r, hr, he⟩ := Option.map_eq_some_iff.mp hi.symm
    rw [hr, Option.map_some, Option.map_some, hfg i part r he.symm]

end parts

/-! ### Wrapping -/

theorem map_eq_ok_iff {f : α → β} {o : Outcome α} {b : β} :
    o.map f = .ok b ↔ ∃ a, o = .ok a ∧ f a = b := by
  cases o <;> simp [Except.map]

theorem map_eq_error_iff {f : α → β} {o : Outcome α} {fs : Failures} :
    o.map f = .error fs ↔ o = .error fs := by
  cases o <;> simp [Except.map]

theorem wrap_eq_ok_iff {cause : Failures → Failure} {o : Outcome α} {a : α} :
    o.wrap cause = .ok a ↔ o = .ok a := by
  cases o <;> simp [wrap, fail]

theorem map_wrap_eq_ok_iff {cause : Failures → Failure} {f : α → β} {o : Outcome α} {b : β} :
    (o.wrap cause).map f = .ok b ↔ ∃ a, o = .ok a ∧ f a = b := by
  cases o <;> simp [wrap, fail, Except.map]

theorem map_wrap_eq_error_iff {cause : Failures → Failure} {f : α → β} {o : Outcome α}
    {fs : Failures} :
    (o.wrap cause).map f = .error fs ↔ ∃ gs, o = .error gs ∧ fs = .one (cause gs) := by
  cases o <;> simp [wrap, fail, Except.map, eq_comm]

theorem failures_map_wrap_field (name : String) (f : α → β) (o : Outcome α) :
    failures ((o.wrap (.field name)).map f) = o.failuresUnder name := by
  cases o <;> rfl

/-- A gathered sequence fails with one failure, which holds all that the parts report. -/
theorem gather_eq_error_iff {cause : Failures → Failure} {f : List α → β}
    {os : List (Outcome α)} {fs : Failures} :
    ((sequence os).wrap cause).map f = .error fs ↔
      ∃ children : Failures,
        children.toList = os.flatMap failures ∧ fs = .one (cause children) := by
  rw [map_wrap_eq_error_iff]
  simp only [sequence_eq_error_iff]

/-- A gathered sequence succeeds exactly if every part does. -/
theorem gather_eq_ok_iff {cause : Failures → Failure} {f : List α → β}
    {os : List (Outcome α)} {b : β} :
    ((sequence os).wrap cause).map f = .ok b ↔ ∃ as : List α, os = as.map .ok ∧ f as = b := by
  rw [map_wrap_eq_ok_iff]
  simp only [sequence_eq_ok_iff]

end Outcome
end TypedConfig
