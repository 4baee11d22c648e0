/-
# The elements that a set keeps

A set is made of a list by keeping each element that none kept before equals. So
what it keeps comes from the list (`mem_of_mem_distinctAfter`), no kept element
equals a later one (`distinctAfter_pairwise`), and a list in which none does is
kept as it is (`setOf_eq_self`).

Key theorems: `Value.mem_of_mem_distinctAfter`, `Value.distinctAfter_pairwise`,
`Value.setOf_eq_self`.
-/
import TypedConfig.Value

namespace TypedConfig
namespace Value

variable {α : Type}

theorem mem_of_mem_distinctAfter {y : Value α} : ∀ {xs kept : List (Value α)},
    y ∈ distinctAfter kept xs → y ∈ kept ∨ y ∈ xs
  | [], _, h => Or.inl h
  | x :: xs, kept, h => by
    rw [distinctAfter] at h
    rcases mem_of_mem_distinctAfter h with h | h
    · split at h
      · exact Or.inl h
      · rcases List.mem_append.mp h with h | h
        · exact Or.inl h
        · rw [List.mem_singleton.mp h]
          exact Or.inr List.mem_cons_self
    · exact Or.inr (List.mem_cons_of_mem _ h)

/-- No element that is kept equals one that is kept later. -/
theorem distinctAfter_pairwise : ∀ {xs kept : List (Value α)},
    kept.Pairwise (fun a b => a.equals b = false) →
      (distinctAfter kept xs).Pairwise fun a b => a.equals b = false
  | [], _, h => h
  | x :: xs, kept, h => by
    rw [distinctAfter]
    apply distinctAfter_pairwise
    split
    · exact h
    · rename_i hx
      rw [List.pairwise_append]
      refine ⟨h, List.pairwise_singleton _ _, fun a ha b hb => ?_⟩
      rw [List.mem_singleton.mp hb]
      have hne : ∀ a ∈ kept, a.equals x = false := by simpa using hx
      exact hne a ha

theorem distinctAfter_eq_append : ∀ {xs kept : List (Value α)},
    (kept ++ xs).Pairwise (fun a b => a.equals b = false) → distinctAfter kept xs = kept ++ xs
  | [], kept, _ => (List.append_nil kept).symm
  | x :: xs, kept, h => by
    have hnew : kept.any (·.equals x) = false := by
      rw [List.any_eq_false]
      intro a ha
      rw [(List.pairwise_append.mp h).2.2 a ha x List.mem_cons_self]
      exact Bool.false_ne_true
    have happend : kept ++ x :: xs = (kept ++ [x]) ++ xs := by
      rw [List.append_assoc, List.singleton_append]
    rw [happend] at h ⊢
    rw [distinctAfter, hnew, if_neg Bool.false_ne_true]
    exact distinctAfter_eq_append h

/-- Of elements none of which equals a later one, a set drops nothing. -/
theorem setOf_eq_self {xs : List (Value α)} (h : xs.Pairwise fun a b => a.equals b = false) :
    setOf xs = .set xs := by
  rw [setOf, distinctAfter_eq_append h, List.nil_append]

end Value
end TypedConfig
