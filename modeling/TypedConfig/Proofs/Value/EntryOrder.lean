/-
# Values that differ in the order of entries

A value may differ from another in the order of the entries of maps inside it, and
in nothing else (`Value.Reordered`). Equality does not see the difference
(`Value.equals_reordered`): it looks entries up by their keys. So of lists whose
elements differ in this way a set keeps those at the same places
(`Value.forall₂_distinctAfter`).

No use is made of equality being symmetric or transitive, which it need not be on
the defaults that an application declares; the induction is on one of the values,
for equality in both directions at once.

Key definitions: `Value.Reordered`, `Value.SameVerdict`, `Value.Unmoved`.
Key theorems: `Value.equals_reordered`, `Value.Reordered.setOf`.
-/
import TypedConfig.Proofs.EntryOrder
import TypedConfig.Proofs.Value.Equality

namespace TypedConfig
namespace Value

open Entries (Beside Agreeing)

variable {α : Type}

/-- The second value is the first with the entries of maps, at any depth, in another order. A
map holds each key once. -/
inductive Reordered : Value α → Value α → Prop
  | refl (v : Value α) : Reordered v v
  | list {xs ys : List (Value α)} (h : List.Forall₂ Reordered xs ys) :
      Reordered (.list xs) (.list ys)
  | set {xs ys : List (Value α)} (h : List.Forall₂ Reordered xs ys) :
      Reordered (.set xs) (.set ys)
  | map {es middle fs : List (String × Value α)} (hk : (Entries.keys es).Nodup)
      (h : List.Forall₂ (Beside Reordered) es middle) (hp : middle.Perm fs) :
      Reordered (.map es) (.map fs)
  | record {name : String} {es fs : List (String × Value α)}
      (h : List.Forall₂ (Beside Reordered) es fs) :
      Reordered (.record name es) (.record name fs)

variable {v w v' w' : Value α} {xs xs' ys ys' : List (Value α)}
  {es es' fs fs' : List (String × Value α)}

/-! ### One level of a value -/

theorem forall₂_reordered_refl (xs : List (Value α)) : List.Forall₂ Reordered xs xs :=
  List.forall₂_same.mpr fun x _ => .refl x

theorem forall₂_beside_refl (es : List (String × Value α)) :
    List.Forall₂ (Beside Reordered) es es :=
  List.forall₂_same.mpr fun e _ => .intro e.1 (.refl e.2)

namespace Reordered

theorem typeName_eq (h : v.Reordered v') : v'.typeName = v.typeName := by
  cases h <;> rfl

theorem exists_list (h : (Value.list xs).Reordered v') :
    ∃ xs', v' = .list xs' ∧ List.Forall₂ Reordered xs xs' := by
  cases h with
  | refl => exact ⟨xs, rfl, forall₂_reordered_refl xs⟩
  | list h => exact ⟨_, rfl, h⟩

theorem exists_set (h : (Value.set xs).Reordered v') :
    ∃ xs', v' = .set xs' ∧ List.Forall₂ Reordered xs xs' := by
  cases h with
  | refl => exact ⟨xs, rfl, forall₂_reordered_refl xs⟩
  | set h => exact ⟨_, rfl, h⟩

theorem exists_map (h : (Value.map es).Reordered v') :
    ∃ es', v' = .map es' ∧ Agreeing Reordered es es' := by
  cases h with
  | refl => exact ⟨es, rfl, Entries.agreeing_of_forall₂ (forall₂_beside_refl es)⟩
  | map hk h hp => exact ⟨_, rfl, Entries.agreeing_of_matched hk ⟨_, h, hp⟩⟩

theorem exists_record {name : String} (h : (Value.record name es).Reordered v') :
    ∃ es', v' = .record name es' ∧ Agreeing Reordered es es' := by
  cases h with
  | refl => exact ⟨es, rfl, Entries.agreeing_of_forall₂ (forall₂_beside_refl es)⟩
  | record h => exact ⟨_, rfl, Entries.agreeing_of_forall₂ h⟩

end Reordered

/-! ### Equality of one level -/

/-- Reordering the two values changes nothing of whether the one equals the other. -/
def SameVerdict (v w : Value α) : Prop :=
  ∀ v' w', v.Reordered v' → w.Reordered w' → v.equals w = v'.equals w'

theorem listEquals_reordered (h : ∀ x ∈ xs, ∀ y ∈ ys, SameVerdict x y)
    (hx : List.Forall₂ Reordered xs xs') (hy : List.Forall₂ Reordered ys ys') :
    listEquals xs ys = listEquals xs' ys' := by
  induction hx generalizing ys ys' with
  | nil => cases hy <;> simp [listEquals]
  | @cons x x' xs xs' hxx hxs ih =>
    cases hy with
    | nil => simp [listEquals]
    | @cons y y' ys ys' hyy hys =>
      have hhead : x.equals y = x'.equals y' :=
        h x List.mem_cons_self y List.mem_cons_self x' y' hxx hyy
      have htail : listEquals xs ys = listEquals xs' ys' :=
        ih (fun a ha b hb => h a (List.mem_cons_of_mem x ha) b (List.mem_cons_of_mem y hb)) hys
      rw [listEquals, listEquals, hhead, htail]

theorem sameVerdict_list (h : ∀ x ∈ xs, ∀ y ∈ ys, SameVerdict x y) :
    SameVerdict (list xs) (list ys) := by
  intro v' w' hv hw
  obtain ⟨xs', rfl, hx⟩ := hv.exists_list
  obtain ⟨ys', rfl, hy⟩ := hw.exists_list
  rw [equals, equals]
  exact listEquals_reordered h hx hy

/-- Sets are compared by asking of the elements on the left whether those on the right equal
them. -/
theorem sameVerdict_set (h : ∀ x ∈ xs, ∀ y ∈ ys, SameVerdict y x) :
    SameVerdict (set xs) (set ys) := by
  intro v' w' hv hw
  obtain ⟨xs', rfl, hx⟩ := hv.exists_set
  obtain ⟨ys', rfl, hy⟩ := hw.exists_set
  rw [Bool.eq_iff_iff, equals_set_iff_each, equals_set_iff_each, hx.length_eq, hy.length_eq]
  refine and_congr_right fun _ => (Matched.of_forall₂ hx).forall_iff fun x hxm x' _ hxx => ?_
  refine (Matched.of_forall₂ hy).exists_iff fun y hym y' _ hyy => ?_
  rw [h x hxm y hym y' x' hyy hxx]

theorem entriesEqual_reordered (h : ∀ e ∈ es, ∀ f ∈ fs, SameVerdict e.2 f.2)
    (he : Agreeing Reordered es es') (hf : Agreeing Reordered fs fs') :
    entriesEqual es fs = entriesEqual es' fs' := by
  rw [Bool.eq_iff_iff, entriesEqual_iff, entriesEqual_iff]
  refine he.matched.forall_iff fun e hem e' _ hee => ?_
  obtain ⟨key, hr⟩ := hee
  have hfound : Option.Rel Reordered (fs.lookup key) (fs'.lookup key) := hf.lookup key
  generalize hl : fs.lookup key = y?, fs'.lookup key = y'? at hfound
  cases hfound with
  | none => simp
  | some hyy => simp [h _ hem _ (Entries.mem_of_lookup hl) _ _ hr hyy]

theorem sameVerdict_map (h : ∀ e ∈ es, ∀ f ∈ fs, SameVerdict e.2 f.2) :
    SameVerdict (map es) (map fs) := by
  intro v' w' hv hw
  obtain ⟨es', rfl, he⟩ := hv.exists_map
  obtain ⟨fs', rfl, hf⟩ := hw.exists_map
  rw [equals, equals, he.matched.length_eq, hf.matched.length_eq, entriesEqual_reordered h he hf]

theorem sameVerdict_record {name name' : String} (h : ∀ e ∈ es, ∀ f ∈ fs, SameVerdict e.2 f.2) :
    SameVerdict (record name es) (record name' fs) := by
  intro v' w' hv hw
  obtain ⟨es', rfl, he⟩ := hv.exists_record
  obtain ⟨fs', rfl, hf⟩ := hw.exists_record
  rw [equals, equals, he.matched.length_eq, hf.matched.length_eq, entriesEqual_reordered h he hf]

theorem equals_eq_false_of_kind (h : v.typeName ≠ w.typeName) : v.equals w = false := by
  unfold equals
  split
  all_goals first
    | rfl
    | exact absurd rfl h

theorem sameVerdict_of_kind (h : v.typeName ≠ w.typeName) : SameVerdict v w := by
  intro v' w' hv hw
  have h' : v'.typeName ≠ w'.typeName := by rwa [hv.typeName_eq, hw.typeName_eq]
  rw [equals_eq_false_of_kind h, equals_eq_false_of_kind h']

/-! ### Equality at all levels -/

/-- Reordering the value and any other changes nothing of whether they are equal, read from
either side. -/
def Unmoved (v : Value α) : Prop := ∀ w, SameVerdict v w ∧ SameVerdict w v

theorem unmoved_of_kind (h : v.typeName ≠ w.typeName) : SameVerdict v w ∧ SameVerdict w v :=
  ⟨sameVerdict_of_kind h, sameVerdict_of_kind h.symm⟩

theorem unmoved (v : Value α) : Unmoved v := by
  induction v using induction with
  | parts v ih =>
    intro w
    cases v with
    | list xs =>
      cases w with
      | list ys =>
        constructor
        · exact sameVerdict_list fun x hx y _ => (ih x hx y).1
        · exact sameVerdict_list fun y _ x hx => (ih x hx y).2
      | _ => exact unmoved_of_kind (by simp [typeName])
    | set xs =>
      cases w with
      | set ys =>
        constructor
        · exact sameVerdict_set fun x hx y _ => (ih x hx y).2
        · exact sameVerdict_set fun y _ x hx => (ih x hx y).1
      | _ => exact unmoved_of_kind (by simp [typeName])
    | map es =>
      have hes : ∀ e ∈ es, Unmoved e.2 := fun e he => ih e.2 (mem_children_of_entry he)
      cases w with
      | map fs =>
        constructor
        · exact sameVerdict_map fun e he f _ => (hes e he f.2).1
        · exact sameVerdict_map fun f _ e he => (hes e he f.2).2
      | _ => exact unmoved_of_kind (by simp [typeName])
    | record name es =>
      have hes : ∀ e ∈ es, Unmoved e.2 := fun e he => ih e.2 (mem_children_of_entry he)
      cases w with
      | record name' fs =>
        constructor
        · exact sameVerdict_record fun e he f _ => (hes e he f.2).1
        · exact sameVerdict_record fun f _ e he => (hes e he f.2).2
      | _ => exact unmoved_of_kind (by simp [typeName])
    | _ =>
      cases w with
      | list ys => exact unmoved_of_kind (by simp [typeName])
      | set ys => exact unmoved_of_kind (by simp [typeName])
      | map fs => exact unmoved_of_kind (by simp [typeName])
      | record name' fs => exact unmoved_of_kind (by simp [typeName])
      | _ =>
        -- neither can be reordered
        constructor <;>
          · rintro _ _ ⟨⟩ ⟨⟩
            rfl

/-- Equality does not see in which order the entries of maps stand. -/
theorem equals_reordered (hv : v.Reordered v') (hw : w.Reordered w') :
    v.equals w = v'.equals w' :=
  (unmoved v w).1 v' w' hv hw

/-! ### Sets -/

theorem forall₂_distinctAfter (hx : List.Forall₂ Reordered xs xs') :
    ∀ {kept kept' : List (Value α)}, List.Forall₂ Reordered kept kept' →
      List.Forall₂ Reordered (distinctAfter kept xs) (distinctAfter kept' xs') := by
  induction hx with
  | nil => exact id
  | @cons x x' xs xs' hxx _ ih =>
    intro kept kept' hk
    have hfound : kept.any (·.equals x) = kept'.any (·.equals x') := by
      rw [Bool.eq_iff_iff, List.any_eq_true, List.any_eq_true]
      refine (Matched.of_forall₂ hk).exists_iff fun k _ k' _ hkk => ?_
      rw [equals_reordered hkk hxx]
    rw [distinctAfter, distinctAfter, hfound]
    cases kept'.any (·.equals x') with
    | true => exact ih hk
    | false => exact ih (List.rel_append hk (.cons hxx .nil))

/-- Of reordered elements a set keeps those at the same places. -/
theorem Reordered.setOf (hx : List.Forall₂ Reordered xs xs') :
    (setOf xs).Reordered (setOf xs') :=
  .set (forall₂_distinctAfter hx .nil)

end Value
end TypedConfig
