/-
# What is read from a value

Reading a value as a target either fails or gives what the value holds, part by
part: the elements of a list in order, one entry for each key of a map, nothing
for a null (`Target.Reads`). A list can be read if each of its elements can, a
map if each of its values can, and a value that may be null if it can be read in
case it is not (`ReadableAs.list` and so on), so that reading succeeds at every
depth as soon as it does at the leaves.

Key definitions: `Target.Reads`, `Value.ReadableAs`.
Key theorems: `Value.extractElements_readable`, `Value.extractEntries_readable`,
`Value.ReadableAs.list`, `Value.ReadableAs.entries`, `Value.ReadableAs.table`,
`Value.ReadableAs.optional`.
-/
import Mathlib.Data.List.Forall2
import Mathlib.Data.String.Basic
import TypedConfig.Proofs.Entries
import TypedConfig.Value.Extraction

namespace TypedConfig

variable {α β γ : Type}

/-- Entries with the same keys, whose values are related one by one. -/
def Entries.Related (r : β → γ → Prop) (es : Entries β) (fs : Entries γ) : Prop :=
  List.Forall₂ (fun e f => f.1 = e.1 ∧ r e.2 f.2) es fs

/-- What the value holds, seen as the target. Maps hold each key once, and a table lists
them by name. -/
def Target.Reads : (target : Target) → Value α → target.Carrier α → Prop
  | .value, v, x => x = v
  | .text, v, s => v = .string s ∨ v = .enum s
  | .long, v, k => v = .long k
  | .int, v, k => ∃ n, v = .long n ∧ k.toInt = n.toInt
  | .double, v, x => v = .double x ∨ ∃ n, v = .long n ∧ x = .ofInt64 n
  | .boolean, v, b => v = .boolean b
  | .path, v, p => v = .path p ∨ v = .string p.text
  | .optional inner, v, x =>
    (v = .null ∧ x = none) ∨ (v.isNull = false ∧ ∃ y, x = some y ∧ inner.Reads v y)
  | .list element, v, xs =>
    ∃ vs, (v = .list vs ∨ v = .set vs) ∧ List.Forall₂ element.Reads vs xs
  | .entries inner, v, es =>
    ∃ vs, (v = .map vs ∨ ∃ name, v = .record name vs) ∧ (Entries.keys vs).Nodup ∧
      Entries.Related inner.Reads vs es
  | .table inner, v, es =>
    ∃ vs listed, (v = .map vs ∨ ∃ name, v = .record name vs) ∧
      Entries.Related inner.Reads vs listed ∧ es.Perm listed ∧ es.Pairwise fun e f => e.1 < f.1

/-! ### Entries side by side -/

namespace Entries

theorem Related.keys_eq {r : β → γ → Prop} {es : Entries β} {fs : Entries γ}
    (h : Related r es fs) : keys fs = keys es := by
  induction h with
  | nil => rfl
  | @cons e f es fs he _ ih =>
    show f.1 :: keys fs = e.1 :: keys es
    rw [he.1, ih]

theorem sorted_perm (es : Entries β) : es.sorted.Perm es := List.mergeSort_perm _ _

/-- Entries with distinct keys are listed strictly by name. -/
theorem sorted_pairwise {es : Entries β} (h : (keys es).Nodup) :
    es.sorted.Pairwise fun e f => e.1 < f.1 := by
  have hle : es.sorted.Pairwise fun e f => decide (¬ f.1 < e.1) = true := by
    refine List.pairwise_mergeSort (fun a b c hab hbc => ?_) (fun a b => ?_) es
    · simp only [decide_eq_true_eq, not_lt] at hab hbc ⊢
      exact hab.trans hbc
    · simp only [Bool.or_eq_true, decide_eq_true_eq, not_lt]
      exact le_total a.1 b.1
  have hne : es.sorted.Pairwise fun e f => e.1 ≠ f.1 := by
    have hkeys : (keys es.sorted).Nodup := ((sorted_perm es).map Prod.fst).nodup_iff.mpr h
    exact List.pairwise_map.mp hkeys
  refine (hle.and hne).imp fun {e f} hef => ?_
  have hlef : ¬ f.1 < e.1 := of_decide_eq_true hef.1
  exact lt_of_le_of_ne (not_lt.mp hlef) hef.2

end Entries

namespace Value

/-! ### Reading part by part -/

section parts

variable {read : Value α → Except ExtractError β} {r : Value α → β → Prop}

/-- Elements that can all be read are read in order. -/
theorem extractElements_readable : ∀ {values : List (Value α)},
    (∀ v ∈ values, ∃ x, read v = .ok x ∧ r v x) →
    ∃ xs, extractElements read values = .ok xs ∧ List.Forall₂ r values xs
  | [], _ => ⟨[], rfl, .nil⟩
  | v :: values, h => by
    obtain ⟨x, hx, hrx⟩ := h v List.mem_cons_self
    obtain ⟨xs, hxs, hrxs⟩ :=
      extractElements_readable fun w hw => h w (List.mem_cons_of_mem _ hw)
    refine ⟨x :: xs, ?_, .cons hrx hrxs⟩
    rw [extractElements, hx, hxs]
    rfl

/-- Entries whose values can all be read are read in order, under their own keys. -/
theorem extractEntries_readable : ∀ {es : List (String × Value α)},
    (∀ e ∈ es, ∃ x, read e.2 = .ok x ∧ r e.2 x) →
    ∃ fs, extractEntries read es = .ok fs ∧ Entries.Related r es fs
  | [], _ => ⟨[], rfl, .nil⟩
  | (key, v) :: es, h => by
    obtain ⟨x, hx, hrx⟩ := h (key, v) List.mem_cons_self
    obtain ⟨fs, hfs, hrfs⟩ :=
      extractEntries_readable fun e he => h e (List.mem_cons_of_mem _ he)
    refine ⟨(key, x) :: fs, ?_, .cons ⟨rfl, hrx⟩ hrfs⟩
    rw [extractEntries, hx, hfs]
    rfl

end parts

/-- The value can be read as the target, and what is read is what it holds. -/
def ReadableAs (target : Target) (value : Value α) : Prop :=
  ∃ x, value.extract target = .ok x ∧ target.Reads value x

namespace ReadableAs

variable {target : Target} {value : Value α}

theorem self : value.ReadableAs .value := ⟨value, rfl, rfl⟩

theorem null : (Value.null : Value α).ReadableAs (.optional target) :=
  ⟨none, rfl, Or.inl ⟨rfl, rfl⟩⟩

/-- A whole number in range is read as the same number of 32 bits. -/
theorem int {k : Int64} (hlo : Int32.minValue.toInt ≤ k.toInt)
    (hhi : k.toInt ≤ Int32.maxValue.toInt) : (Value.long k : Value α).ReadableAs .int := by
  have hfits : Number.fitsInt32 k.toInt = true := by
    simp only [Number.fitsInt32, Bool.and_eq_true, decide_eq_true_eq]
    exact ⟨hlo, hhi⟩
  have hsame : (Int32.ofInt k.toInt).toInt = k.toInt :=
    Int32.toInt_ofInt_of_le hlo (Int.lt_add_one_of_le hhi)
  exact ⟨Int32.ofInt k.toInt, if_pos hfits, k, rfl, hsame⟩

/-- A value that can be read is something where nothing is acceptable as well. -/
theorem optional (h : value.ReadableAs target) : value.ReadableAs (.optional target) := by
  cases hn : value.isNull with
  | true =>
    cases value with
    | null => exact null
    | _ => cases hn
  | false =>
    obtain ⟨x, hx, hr⟩ := h
    refine ⟨some x, ?_, Or.inr ⟨hn, x, rfl, hr⟩⟩
    have hstep : value.extract (.optional target) = (value.extract target).map some := by
      cases value with
      | null => cases hn
      | _ => rfl
    rw [hstep, hx]
    rfl

/-- A collection can be read if its elements can. -/
theorem list {values : List (Value α)} (hv : value = .list values ∨ value = .set values)
    (h : ∀ v ∈ values, v.ReadableAs target) : value.ReadableAs (.list target) := by
  obtain ⟨xs, hxs, hr⟩ := extractElements_readable h
  refine ⟨xs, ?_, values, hv, hr⟩
  rcases hv with rfl | rfl <;> exact hxs

/-- A map can be read in order if its values can be read. -/
theorem entries {es : List (String × Value α)} (hk : (Entries.keys es).Nodup)
    (h : ∀ e ∈ es, e.2.ReadableAs target) : (Value.map es).ReadableAs (.entries target) := by
  obtain ⟨fs, hfs, hr⟩ := extractEntries_readable h
  exact ⟨fs, hfs, es, Or.inl rfl, hk, hr⟩

/-- A map can be read by name if its values can be read. -/
theorem table {es : List (String × Value α)} (hk : (Entries.keys es).Nodup)
    (h : ∀ e ∈ es, e.2.ReadableAs target) : (Value.map es).ReadableAs (.table target) := by
  obtain ⟨fs, hfs, hr⟩ := extractEntries_readable h
  refine ⟨Entries.sorted fs, ?_, es, fs, Or.inl rfl, hr, Entries.sorted_perm fs, ?_⟩
  · show (extractEntries (extract target) es).map Entries.sorted = .ok (Entries.sorted fs)
    rw [hfs]
    rfl
  · exact Entries.sorted_pairwise (hr.keys_eq ▸ hk)

end ReadableAs
end Value
end TypedConfig
