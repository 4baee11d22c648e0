/-
# Making a set of a list

A set keeps an element of the list exactly if no element that it kept before
equals it (`setOf_chosen`). So every element is kept or equals one that is, and
of elements that are proper and free of NaN the set keeps one for each class of
equal ones. In whatever order the list gives them, the sets are equal
(`setOf_equals_of_perm`): the elements kept of the one list find different
partners among those kept of the other, so neither set is larger.

Key definitions: `Value.chosen`.
Key theorems: `Value.setOf_chosen`, `Value.mem_or_equals_of_mem`,
`Value.setOf_equals_of_perm`.
-/
import TypedConfig.Proofs.Value.Distinct
import TypedConfig.Proofs.Value.Equality

namespace TypedConfig
namespace Value

variable {α : Type} {x : Value α} {xs ys : List (Value α)}

/-! ### What is kept of a list -/

/-- The elements of `xs` at the places that `keep` chooses, in order. -/
def chosen (keep : Nat → Bool) (xs : List (Value α)) : List (Value α) :=
  (xs.zipIdx.filter fun p => keep p.2).map (·.1)

theorem chosen_concat (keep : Nat → Bool) (xs : List (Value α)) (x : Value α) :
    chosen keep (xs ++ [x]) = chosen keep xs ++ if keep xs.length then [x] else [] := by
  rw [chosen, List.zipIdx_append, List.filter_append, List.map_append, chosen]
  cases h : keep xs.length <;> simp [h]

theorem mem_chosen {keep : Nat → Bool} :
    x ∈ chosen keep xs ↔ ∃ i, keep i = true ∧ xs[i]? = some x := by
  simp only [chosen, List.mem_map, List.mem_filter, Prod.exists, exists_and_right, exists_eq_right,
    List.mk_mem_zipIdx_iff_getElem?]
  exact exists_congr fun i => and_comm

theorem distinctAfter_concat (x : Value α) : ∀ (xs kept : List (Value α)),
    distinctAfter kept (xs ++ [x]) =
      if (distinctAfter kept xs).any (·.equals x) then distinctAfter kept xs
      else distinctAfter kept xs ++ [x]
  | [], _ => rfl
  | _ :: xs, _ => distinctAfter_concat x xs _

/-- Whether the element at `i` is kept: whether none that is kept in front of it equals it. -/
def keeps (xs : List (Value α)) (i : Nat) : Bool :=
  match xs[i]? with
  | some x => !(distinctAfter [] (xs.take i)).any (·.equals x)
  | none => false

theorem distinctAfter_take (xs : List (Value α)) : ∀ n : Nat,
    distinctAfter [] (xs.take n) = chosen (keeps xs) (xs.take n)
  | 0 => rfl
  | n + 1 => by
    rw [List.take_add_one]
    cases hx : xs[n]? with
    | none =>
      rw [Option.toList_none, List.append_nil]
      exact distinctAfter_take xs n
    | some x =>
      have hlt : n < xs.length := (List.getElem?_eq_some_iff.mp hx).1
      have hlen : (xs.take n).length = n := by
        rw [List.length_take]
        omega
      rw [Option.toList_some, distinctAfter_concat, chosen_concat, hlen, keeps, hx,
        ← distinctAfter_take xs n]
      cases h : (distinctAfter [] (xs.take n)).any (·.equals x) <;> simp [h]

theorem keeps_iff {i : Nat} (hx : xs[i]? = some x) : keeps xs i = true ↔
    ∀ j y, j < i → keeps xs j = true → xs[j]? = some y → y.equals x = false := by
  rw [keeps, hx, distinctAfter_take]
  simp only [Bool.not_eq_true', List.any_eq_false, Bool.not_eq_true]
  constructor
  · intro h j y hj hkeep hy
    refine h y (mem_chosen.mpr ⟨j, hkeep, ?_⟩)
    rw [List.getElem?_take_of_lt hj, hy]
  · intro h y hy
    obtain ⟨j, hkeep, hj⟩ := mem_chosen.mp hy
    rw [List.getElem?_take] at hj
    split at hj
    · exact h j y ‹_› hkeep hj
    · cases hj

/-- A set keeps the elements that none kept before equals, in their order; what it drops
equals an element kept before, and nothing more is dropped when it is made again. -/
theorem setOf_chosen (xs : List (Value α)) : ∃ keep : Nat → Bool,
    setOf xs = .set (chosen keep xs) ∧
      (∀ i x, xs[i]? = some x → (keep i = true ↔
        ∀ j y, j < i → keep j = true → xs[j]? = some y → y.equals x = false)) ∧
      (∀ i x, xs[i]? = some x → keep i = false →
        ∃ j y, j < i ∧ keep j = true ∧ xs[j]? = some y ∧ y.equals x = true) ∧
      (chosen keep xs).Pairwise (fun x y => x.equals y = false) ∧
      setOf (chosen keep xs) = .set (chosen keep xs) := by
  have hchosen : distinctAfter [] xs = chosen (keeps xs) xs := by
    have h := distinctAfter_take xs xs.length
    rwa [List.take_length] at h
  have hpairwise : (chosen (keeps xs) xs).Pairwise fun x y => x.equals y = false :=
    hchosen ▸ distinctAfter_pairwise .nil
  refine ⟨keeps xs, by rw [setOf, hchosen], fun i x => keeps_iff, ?_, hpairwise,
    setOf_eq_self hpairwise⟩
  intro i x hx hdropped
  by_contra hnone
  have hkept : keeps xs i = true := by
    refine (keeps_iff hx).mpr fun j y hj hkeep hy => Bool.eq_false_iff.mpr fun hyx => ?_
    exact hnone ⟨j, y, hj, hkeep, hy, hyx⟩
  rw [hdropped] at hkept
  cases hkept

theorem mem_distinctAfter_of_kept : ∀ {xs kept : List (Value α)}, x ∈ kept →
    x ∈ distinctAfter kept xs
  | [], _, h => h
  | y :: xs, kept, h => by
    rw [distinctAfter]
    refine mem_distinctAfter_of_kept ?_
    split
    · exact h
    · exact List.mem_append_left _ h

/-- Every element of the list is kept or equals one that is. -/
theorem mem_or_equals_of_mem : ∀ {xs kept : List (Value α)}, x ∈ xs →
    x ∈ distinctAfter kept xs ∨ ∃ k ∈ distinctAfter kept xs, k.equals x = true
  | y :: xs, kept, h => by
    rw [distinctAfter]
    rcases List.mem_cons.mp h with rfl | h
    · by_cases hk : kept.any (·.equals x) = true
      · rw [if_pos hk]
        obtain ⟨k, hm, hkx⟩ := List.any_eq_true.mp hk
        exact Or.inr ⟨k, mem_distinctAfter_of_kept hm, hkx⟩
      · rw [if_neg hk]
        left
        exact mem_distinctAfter_of_kept (List.mem_append_right _ List.mem_cons_self)
    · exact mem_or_equals_of_mem h

theorem kept_or_equals (h : x ∈ xs) :
    x ∈ distinctAfter [] xs ∨ ∃ k ∈ distinctAfter [] xs, k.equals x = true :=
  mem_or_equals_of_mem h

theorem pairwise_kept (xs : List (Value α)) :
    (distinctAfter [] xs).Pairwise fun x y => x.equals y = false :=
  distinctAfter_pairwise .nil

theorem mem_of_mem_distinct (h : x ∈ distinctAfter [] xs) : x ∈ xs :=
  (mem_of_mem_distinctAfter h).resolve_left List.not_mem_nil

/-! ### The order of the list -/

/-- A set of proper values is proper. -/
theorem proper_setOf (h : ∀ x ∈ xs, x.Proper) : (setOf xs).Proper := by
  refine everywhere_iff.mpr ⟨pairwise_kept xs, fun c hc => ?_⟩
  exact h c (mem_of_mem_distinct hc)

/-- A NaN in an element is never lost: it keeps the element from equalling another. -/
theorem nanFree_of_setOf (hp : ∀ x ∈ xs, x.Proper) (h : (setOf xs).NaNFree) :
    ∀ x ∈ xs, x.NaNFree := by
  intro x hx
  rcases kept_or_equals hx with hk | ⟨k, hk, hkx⟩
  · exact NaNFree.child h hk
  · have hpk : k.Proper := hp k (mem_of_mem_distinct hk)
    have hself : x.equals x = true := (hp x hx).self_of_equals hpk (hpk.symm (hp x hx) hkx)
    exact (equals_self_iff (hp x hx)).mp hself

theorem nanFree_setOf (h : ∀ x ∈ xs, x.NaNFree) : (setOf xs).NaNFree :=
  everywhere_iff.mpr ⟨trivial, fun c hc => h c (mem_of_mem_distinct hc)⟩

/-- What is kept of a list finds different partners among what is kept of another one that has
the same elements and more. -/
theorem exists_kept_partners (hsubset : ∀ x ∈ xs, x ∈ ys) (hp : ∀ y ∈ ys, y.Proper)
    (hn : ∀ y ∈ ys, y.NaNFree) :
    ∃ partners, List.Forall₂ (fun x y => x.equals y = true) (distinctAfter [] xs) partners ∧
      partners.Subperm (distinctAfter [] ys) := by
  have hx : ∀ x ∈ distinctAfter [] xs, x ∈ ys := fun x hm => hsubset x (mem_of_mem_distinct hm)
  have hy : ∀ y ∈ distinctAfter [] ys, y ∈ ys := fun y hm => mem_of_mem_distinct hm
  refine exists_partners (fun x hm => ?_) ?_
  · have hpx : x.Proper := hp x (hx x hm)
    rcases kept_or_equals (hx x hm) with hk | ⟨k, hk, hkx⟩
    · exact ⟨x, hk, (equals_self_iff hpx).mpr (hn x (hx x hm))⟩
    · exact ⟨k, hk, (hp k (hy k hk)).symm hpx hkx⟩
  · refine List.Pairwise.imp_of_mem (fun {a b} ha hb hab y hm hay hby => ?_)
      (pairwise_kept xs)
    have hpy : y.Proper := hp y (hy y hm)
    have hyb : y.equals b = true := (hp b (hx b hb)).symm hpy hby
    have hequal : a.equals b = true := (hp a (hx a ha)).trans hpy (hp b (hx b hb)) hay hyb
    rw [hab] at hequal
    cases hequal

/-- Sets of the same elements in different orders are equal. -/
theorem setOf_equals_of_perm (h : xs.Perm ys) (hx : ∀ x ∈ xs, x.Proper ∧ x.NaNFree) :
    (setOf xs).equals (setOf ys) = true ∧ (setOf ys).equals (setOf xs) = true := by
  have hp : ∀ x ∈ xs, x.Proper := fun x hm => (hx x hm).1
  have hn : ∀ x ∈ xs, x.NaNFree := fun x hm => (hx x hm).2
  have hpy : ∀ y ∈ ys, y.Proper := fun y hy => hp y (h.symm.subset hy)
  have hny : ∀ y ∈ ys, y.NaNFree := fun y hy => hn y (h.symm.subset hy)
  obtain ⟨partners, hr, hle⟩ := exists_kept_partners (fun x hx => h.subset hx) hpy hny
  obtain ⟨partners', hr', hle'⟩ := exists_kept_partners (fun y hy => h.symm.subset hy) hp hn
  have hlen : (distinctAfter [] ys).length ≤ partners.length := by
    calc (distinctAfter [] ys).length = partners'.length := hr'.length_eq
      _ ≤ (distinctAfter [] xs).length := hle'.length_le
      _ = partners.length := hr.length_eq
  have hequal : (setOf xs).equals (setOf ys) = true := by
    rw [equals_iff_alike (proper_setOf hp) (proper_setOf hpy)]
    exact .set ⟨partners, hr, hle.perm_of_length_le hlen⟩
  exact ⟨hequal, (proper_setOf hp).symm (proper_setOf hpy) hequal⟩

end Value
end TypedConfig
