/-
# Lists that match in some order

Two lists match if the elements of the one can be put beside those of the other,
in some order, so that each stands beside one that it is related to
(`Matched`). Where every element has a partner and no two can have the same
one, the partners are as many as the elements (`exists_partners`); so lists of
one length match (`matched_of_partners`).

Matching is turned round, or put together, if the relation is for the elements
at hand (`Matched.symm_of`, `Matched.trans_of`).

Key definitions: `Matched`.
Key theorems: `exists_partners`, `matched_of_partners`, `Matched.symm_of`,
`Matched.trans_of`.
-/
import Mathlib.Data.List.Perm.Basic

namespace TypedConfig

variable {α β γ : Type} {r : α → β → Prop} {xs : List α} {ys : List β}

/-- The elements of `xs` are related, one by one, to those of `ys` in some order. -/
def Matched (r : α → β → Prop) (xs : List α) (ys : List β) : Prop :=
  ∃ partners, List.Forall₂ r xs partners ∧ partners.Perm ys

/-- What holds of related elements of two lists may be used where the lists are related. -/
theorem forall₂_of_mem {s : α → β → Prop} (h : List.Forall₂ r xs ys)
    (hs : ∀ x ∈ xs, ∀ y ∈ ys, r x y → s x y) : List.Forall₂ s xs ys := by
  induction h with
  | nil => exact .nil
  | @cons x y xs ys hxy _ ih =>
    refine .cons (hs x List.mem_cons_self y List.mem_cons_self hxy) (ih fun a ha b hb => ?_)
    exact hs a (List.mem_cons_of_mem _ ha) b (List.mem_cons_of_mem _ hb)

theorem forall₂_self (xs : List α) : List.Forall₂ (fun x y => x = y ∧ x ∈ xs) xs xs :=
  List.forall₂_same.mpr fun _ hx => ⟨rfl, hx⟩

theorem forall₂_symm_of_mem {s : β → α → Prop} (h : List.Forall₂ r xs ys)
    (hs : ∀ x ∈ xs, ∀ y ∈ ys, r x y → s y x) : List.Forall₂ s ys xs :=
  .flip (forall₂_of_mem h hs)

theorem forall₂_trans_of_mem {s : β → γ → Prop} {t : α → γ → Prop} :
    ∀ {xs : List α} {ys : List β} {zs : List γ}, List.Forall₂ r xs ys → List.Forall₂ s ys zs →
      (∀ x ∈ xs, ∀ y ∈ ys, ∀ z ∈ zs, r x y → s y z → t x z) → List.Forall₂ t xs zs
  | _, _, _, .nil, .nil, _ => .nil
  | _, _, _, .cons (a := x) (b := y) hxy hxys, .cons (b := z) hyz hyzs, ht => by
    refine .cons ?_ (forall₂_trans_of_mem hxys hyzs fun a ha b hb c hc => ?_)
    · exact ht x List.mem_cons_self y List.mem_cons_self z List.mem_cons_self hxy hyz
    · exact ht a (List.mem_cons_of_mem _ ha) b (List.mem_cons_of_mem _ hb) c
        (List.mem_cons_of_mem _ hc)

theorem forall₂_mapIdx {δ : Type} {s : γ → δ → Prop} :
    ∀ {xs : List α} {ys : List β} {f : Nat → α → γ} {g : Nat → β → δ}, List.Forall₂ r xs ys →
      (∀ i x y, r x y → s (f i x) (g i y)) → List.Forall₂ s (xs.mapIdx f) (ys.mapIdx g)
  | _, _, _, _, .nil, _ => .nil
  | _, _, _, _, .cons hxy hrest, h => by
    rw [List.mapIdx_cons, List.mapIdx_cons]
    exact .cons (h 0 _ _ hxy) (forall₂_mapIdx hrest fun i x y => h (i + 1) x y)

namespace Matched

theorem length_eq (h : Matched r xs ys) : xs.length = ys.length := by
  obtain ⟨partners, hr, hp⟩ := h
  exact hr.length_eq.trans hp.length_eq

/-- Every element on the left has a partner. -/
theorem exists_partner (h : Matched r xs ys) : ∀ x ∈ xs, ∃ y ∈ ys, r x y := by
  obtain ⟨partners, hr, hp⟩ := h
  intro x hx
  obtain ⟨i, hi, rfl⟩ := List.mem_iff_getElem.mp hx
  have hi' : i < partners.length := hr.length_eq ▸ hi
  exact ⟨partners[i], hp.subset (List.getElem_mem hi'), hr.get hi hi'⟩

theorem of_forall₂ (h : List.Forall₂ r xs ys) : Matched r xs ys := ⟨ys, h, .refl ys⟩

theorem symm_of {s : β → α → Prop} (hs : ∀ x ∈ xs, ∀ y ∈ ys, r x y → s y x)
    (h : Matched r xs ys) : Matched s ys xs := by
  obtain ⟨partners, hr, hp⟩ := h
  have hback : List.Forall₂ s partners xs :=
    forall₂_symm_of_mem hr fun x hx y hy => hs x hx y (hp.subset hy)
  exact List.perm_comp_forall₂ hp.symm hback

/-- Every element on the right is the partner of one. -/
theorem exists_partner_of (h : Matched r xs ys) : ∀ y ∈ ys, ∃ x ∈ xs, r x y :=
  (h.symm_of fun _ _ _ _ => id).exists_partner

/-- What holds of related elements alike holds of all on the left exactly if it holds of all on
the right. -/
theorem forall_iff (h : Matched r xs ys) {p : α → Prop} {q : β → Prop}
    (hpq : ∀ x ∈ xs, ∀ y ∈ ys, r x y → (p x ↔ q y)) : (∀ x ∈ xs, p x) ↔ ∀ y ∈ ys, q y := by
  constructor
  · intro hp y hy
    obtain ⟨x, hx, hxy⟩ := h.exists_partner_of y hy
    exact (hpq x hx y hy hxy).mp (hp x hx)
  · intro hq x hx
    obtain ⟨y, hy, hxy⟩ := h.exists_partner x hx
    exact (hpq x hx y hy hxy).mpr (hq y hy)

/-- What holds of related elements alike holds of some on the left exactly if it holds of some
on the right. -/
theorem exists_iff (h : Matched r xs ys) {p : α → Prop} {q : β → Prop}
    (hpq : ∀ x ∈ xs, ∀ y ∈ ys, r x y → (p x ↔ q y)) :
    (∃ x ∈ xs, p x) ↔ ∃ y ∈ ys, q y := by
  constructor
  · rintro ⟨x, hx, hp⟩
    obtain ⟨y, hy, hxy⟩ := h.exists_partner x hx
    exact ⟨y, hy, (hpq x hx y hy hxy).mp hp⟩
  · rintro ⟨y, hy, hq⟩
    obtain ⟨x, hx, hxy⟩ := h.exists_partner_of y hy
    exact ⟨x, hx, (hpq x hx y hy hxy).mpr hq⟩

theorem trans_of {s : β → γ → Prop} {t : α → γ → Prop} {zs : List γ}
    (ht : ∀ x ∈ xs, ∀ y ∈ ys, ∀ z ∈ zs, r x y → s y z → t x z)
    (hxy : Matched r xs ys) (hyz : Matched s ys zs) : Matched t xs zs := by
  obtain ⟨middle, hr, hp⟩ := hxy
  obtain ⟨last, hs, hq⟩ := hyz
  -- the partners of `ys` in the order that `xs` asks for
  obtain ⟨ends, hs', hp'⟩ := List.perm_comp_forall₂ hp hs
  refine ⟨ends, forall₂_trans_of_mem hr hs' fun x hx y hy z hz => ?_, hp'.trans hq⟩
  exact ht x hx y (hp.subset hy) z (hq.subset (hp'.subset hz))

/-- What is made of matching lists, part by part with the numbers of the parts, matches if the
numbers make no difference. -/
theorem mapIdx {δ : Type} {s : γ → δ → Prop} {f : Nat → α → γ} {g : Nat → β → δ}
    (h : Matched r xs ys) (hfg : ∀ i j x y, r x y → s (f i x) (g j y)) :
    Matched s (xs.mapIdx f) (ys.mapIdx g) := by
  have hself : ∀ {ε ζ : Type} (zs : List ε) (k : Nat → ε → ζ),
      List.Forall₂ (fun z c => ∃ i, c = k i z) zs (zs.mapIdx k) := by
    intro ε ζ zs k
    refine List.forall₂_iff_get.mpr ⟨(List.length_mapIdx).symm, fun i hi hi' => ⟨i, ?_⟩⟩
    simp
  have hleft : Matched (fun c x => ∃ i, c = f i x) (xs.mapIdx f) xs := .of_forall₂ (hself xs f).flip
  have hright : Matched (fun y d => ∃ j, d = g j y) ys (ys.mapIdx g) := .of_forall₂ (hself ys g)
  have hmiddle : Matched (fun c y => ∃ i x, c = f i x ∧ r x y) (xs.mapIdx f) ys :=
    .trans_of (fun c _ x _ y _ ⟨i, hc⟩ hxy => ⟨i, x, hc, hxy⟩) hleft h
  refine .trans_of (fun c _ y _ d _ hcy hyd => ?_) hmiddle hright
  obtain ⟨i, x, rfl, hxy⟩ := hcy
  obtain ⟨j, rfl⟩ := hyd
  exact hfg i j x y hxy

end Matched

/-! ### Partners -/

/-- If every element has a partner and no two share one, the partners are among `ys`, each
taken once. -/
theorem exists_partners : ∀ {xs : List α} {ys : List β}, (∀ x ∈ xs, ∃ y ∈ ys, r x y) →
    xs.Pairwise (fun a b => ∀ y ∈ ys, r a y → ¬ r b y) →
    ∃ partners, List.Forall₂ r xs partners ∧ partners.Subperm ys
  | [], ys, _, _ => ⟨[], .nil, List.nil_subperm⟩
  | x :: xs, ys, h, hd => by
    rw [List.pairwise_cons] at hd
    obtain ⟨y, hy, hxy⟩ := h x List.mem_cons_self
    obtain ⟨before, after, rfl⟩ := List.append_of_mem hy
    have hsubset : ∀ z ∈ before ++ after, z ∈ before ++ y :: after := by
      intro z hz
      exact List.perm_middle.symm.subset (List.mem_cons_of_mem y hz)
    -- `y` is taken, so the others find their partners beside it
    have hrest : ∀ a ∈ xs, ∃ z ∈ before ++ after, r a z := by
      intro a ha
      obtain ⟨z, hz, haz⟩ := h a (List.mem_cons_of_mem x ha)
      rcases List.mem_cons.mp (List.perm_middle.subset hz) with rfl | hz
      · exact absurd haz (hd.1 a ha z hy hxy)
      · exact ⟨z, hz, haz⟩
    have hdrest : xs.Pairwise fun a b => ∀ z ∈ before ++ after, r a z → ¬ r b z :=
      hd.2.imp fun hab z hz => hab z (hsubset z hz)
    obtain ⟨partners, hr, hp⟩ := exists_partners hrest hdrest
    refine ⟨y :: partners, .cons hxy hr, ?_⟩
    exact ((List.subperm_cons y).mpr hp).trans List.perm_middle.symm.subperm

/-- Lists match if every element of the one has a partner, no two share one, and the other
list is not longer. -/
theorem matched_of_partners (h : ∀ x ∈ xs, ∃ y ∈ ys, r x y)
    (hd : xs.Pairwise fun a b => ∀ y ∈ ys, r a y → ¬ r b y) (hlen : ys.length ≤ xs.length) :
    Matched r xs ys := by
  obtain ⟨partners, hr, hp⟩ := exists_partners h hd
  exact ⟨partners, hr, hp.perm_of_length_le (hr.length_eq ▸ hlen)⟩

end TypedConfig
