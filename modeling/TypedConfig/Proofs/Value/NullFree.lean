/-
# Values without a null

A value is free of null if it is no null and holds none, at any depth
(`Value.NullFree`). Of proper values, what equals one that is free of null is so
itself: their parts match (`Value.nullFree_of_equals`). So no null gets lost when
elements are made a set, although the set drops some of them
(`Value.nullFree_of_setOf`).

Key definitions: `Value.NullFree`.
Key theorems: `Value.nullFree_of_equals`, `Value.nullFree_of_setOf`.
-/
import TypedConfig.Proofs.Value.SetOf

namespace TypedConfig
namespace Value

variable {α : Type} {x y : Value α} {xs : List (Value α)}

/-- No null is in the value. -/
def NullFree (v : Value α) : Prop := v.Everywhere fun part => part.isNull = false

theorem NullFree.child {v : Value α} (h : v.NullFree) {child : Value α} (hm : child ∈ v.children) :
    child.NullFree :=
  Everywhere.child h hm

theorem not_nullFree_null : ¬ (null : Value α).NullFree := fun h => by
  cases h.self

theorem nullFree_of_no_children {v : Value α} (h0 : v.children = []) (h : v.isNull = false) :
    v.NullFree := by
  refine everywhere_iff.mpr ⟨h, fun child hm => ?_⟩
  rw [h0] at hm
  cases hm

/-- What equals a value that is free of null is free of null. -/
theorem nullFree_of_equals {x : Value α} :
    ∀ {y : Value α}, x.Proper → y.Proper → x.equals y = true → x.NullFree → y.NullFree := by
  induction x using induction with
  | parts x ih =>
    intro y hx hy hequal hn
    have hentries : ∀ {es fs : List (String × Value α)}, x.children = es.map (·.2) →
        y.children = fs.map (·.2) → Matched SameEntry es fs → ∀ c ∈ y.children, c.NullFree := by
      intro es fs hes hfs h c hc
      rw [hfs] at hc
      obtain ⟨f, hf, rfl⟩ := List.mem_map.mp hc
      obtain ⟨e, he, hef⟩ := h.exists_partner_of f hf
      have he' : e.2 ∈ x.children := hes ▸ mem_children_of_entry he
      have hf' : f.2 ∈ y.children := hfs ▸ mem_children_of_entry hf
      exact ih e.2 he' (hx.child he') (hy.child hf') hef.2 (hn.child he')
    have helements : ∀ {xs ys : List (Value α)}, x.children = xs → y.children = ys →
        Matched (fun x y => x.equals y = true) xs ys → ∀ c ∈ y.children, c.NullFree := by
      rintro xs ys rfl rfl h c hc
      obtain ⟨a, ha, hac⟩ := h.exists_partner_of c hc
      exact ih a ha (hx.child ha) (hy.child hc) hac (hn.child ha)
    rw [equals_iff_alike hx hy] at hequal
    cases hequal with
    | null => exact hn
    | list h => exact everywhere_iff.mpr ⟨rfl, helements rfl rfl (.of_forall₂ h)⟩
    | set h => exact everywhere_iff.mpr ⟨rfl, helements rfl rfl h⟩
    | map h => exact everywhere_iff.mpr ⟨rfl, hentries rfl rfl h⟩
    | record h => exact everywhere_iff.mpr ⟨rfl, hentries rfl rfl h⟩
    | _ => exact nullFree_of_no_children rfl rfl

/-- A null in an element is never lost: whatever is kept in place of the element holds one,
too. -/
theorem nullFree_of_setOf (hp : ∀ x ∈ xs, x.Proper) (h : (setOf xs).NullFree) :
    ∀ x ∈ xs, x.NullFree := by
  intro x hx
  rcases kept_or_equals hx with hk | ⟨k, hk, hkx⟩
  · exact h.child hk
  · exact nullFree_of_equals (hp k (mem_of_mem_distinct hk)) (hp x hx) hkx (h.child hk)

end Value
end TypedConfig
