/-
# Sets do not depend on the order of their elements

With the built-in decoders and without constructors, decoding does not depend on
the site at which it goes on (`decodeAt_site`), and without defaults it makes values
that are proper (`proper_of_decodeAt`). So the elements of a set give the same
values in whatever order an array holds them, and the sets made of these are equal
(`setOf_order`).

Key definitions: `Shape.Bare`.
Key theorems: `Context.decodeAt_site`, `Context.decodeAt_set_eq_ok_iff`,
`Context.setOf_order`.
-/
import TypedConfig.Proofs.Decoding.Proper

namespace TypedConfig

variable {α : Type}

/-- A record without a constructor and without defaults, said of the shape without its parts. -/
def Shape.Bare : Shape α → Prop
  | .record _ fields constructor? _ =>
    constructor? = none ∧ ∀ field ∈ fields, field.default? = none
  | _ => True

theorem Shape.Bare.constructorFree {shape : Shape α} (h : shape.Bare) : shape.ConstructorFree := by
  cases shape with
  | record name fields constructor? nullable => exact h.1
  | _ => exact trivial

theorem Shape.Bare.properDefaults {shape : Shape α} (h : shape.Bare) : shape.ProperDefaults := by
  cases shape with
  | record name fields constructor? nullable =>
    intro field hf value hd
    rw [h.2 field hf] at hd
    cases hd
  | _ => exact trivial

namespace Context

variable {ctx : Context α} {shape : Shape α} {site : Site} {node : Node} {value : Value α}

/-! ### Sites -/

/-- Without constructors, what is decoded does not depend on the site. -/
theorem decodeAt_site (hreg : ctx.registry = Registry.defaults) :
    shape.Everywhere Shape.ConstructorFree → ∀ (site site' : Site) (node : Node),
      ctx.decodeAt shape site node = ctx.decodeAt shape site' node := by
  induction shape using Shape.induction with
  | leaf kind nullable =>
    intro _ site site' node
    cases hf : (Shape.leaf (α := α) kind nullable).foreign with
    | true => rw [decodeAt_foreign hreg hf, decodeAt_foreign hreg hf]
    | false => rw [decodeAt_leaf hreg hf, decodeAt_leaf hreg hf]
  | collection kind element nullable ih =>
    intro h site site' node
    have hparts : (fun i n => ctx.decodeAt element (i :: site) n) =
        fun i n => ctx.decodeAt element (i :: site') n :=
      funext fun i => funext fun n => ih h.element _ _ n
    rw [decodeAt_collection hreg, decodeAt_collection hreg]
    simp only [decodeCollection, hparts]
  | map inner nullable ih =>
    intro h site site' node
    have hparts : (fun i e => ctx.decodeEntry (ctx.decodeAt inner) (i :: site) e) =
        fun i e => ctx.decodeEntry (ctx.decodeAt inner) (i :: site') e := by
      funext i e
      rw [decodeEntry, ih h.value (i :: site) (i :: site'), decodeEntry]
    rw [decodeAt_map hreg, decodeAt_map hreg]
    simp only [decodeMap, hparts]
  | record name fields constructor? nullable ih =>
    intro h site site' node
    have hnone : constructor? = none := h.self
    subst hnone
    have hfields : ctx.fieldOutcomes fields site node = ctx.fieldOutcomes fields site' node := by
      rw [fieldOutcomes, fieldOutcomes, List.mapIdx_eq_mapIdx_iff]
      intro i hi
      have hm : fields[i] ∈ fields := List.getElem_mem hi
      have hsite : ctx.decodeAt fields[i].shape (i :: site) =
          ctx.decodeAt fields[i].shape (i :: site') :=
        funext fun n => ih _ hm (h.field hm) _ _ n
      simp only [bindField, hsite]
    rw [decodeAt_record hreg, decodeAt_record hreg, hfields]
    rfl

/-! ### The elements of a set -/

/-- A set is decoded from an array exactly if every element of the array is, and it is made of
what the elements give. -/
theorem decodeAt_set_eq_ok_iff (hreg : ctx.registry = Registry.defaults) {element : Shape α}
    (hb : element.Everywhere Shape.Bare) (hf : element.foreign = false) {nullable : Bool}
    {elements : List Node} {place : Place} :
    ctx.decodeAt (.collection .set element nullable) site (.array elements place) = .ok value ↔
      ∃ values, List.Forall₂ (fun n v => ctx.decodeAt element [] (ctx.preprocess n) = .ok v)
        elements values ∧ Value.setOf values = value := by
  have hparts : ((elements.map ctx.preprocess).mapIdx fun i n =>
      ctx.decodeAt element (i :: site) n) =
      elements.map fun n => ctx.decodeAt element [] (ctx.preprocess n) := by
    apply List.ext_getElem (by simp)
    intro i _ _
    simp only [List.getElem_mapIdx, List.getElem_map]
    exact decodeAt_site hreg (hb.imp fun _ => Shape.Bare.constructorFree) _ _ _
  rw [decodeAt_collection hreg, guardNull_present rfl, decodeCollection_builtin hreg _ hf]
  simp only [elements?]
  rw [hparts, Outcome.gather_eq_ok_iff]
  simp only [← List.forall₂_eq_eq_eq, List.forall₂_map_left_iff, List.forall₂_map_right_iff]
  rfl

/-- The elements in another order make a set of the same values in another order. -/
theorem exists_set_of_perm (hreg : ctx.registry = Registry.defaults) {element : Shape α}
    (hb : element.Everywhere Shape.Bare) {nullable : Bool} {elements elements' : List Node}
    (h : elements.Perm elements') {place : Place} (site' : Site) (place' : Place)
    (hok : ctx.decodeAt (.collection .set element nullable) site (.array elements place) =
      .ok value) :
    ∃ values values', values.Perm values' ∧ (∀ v ∈ values, v.Proper) ∧
      value = Value.setOf values ∧
      ctx.decodeAt (.collection .set element nullable) site' (.array elements' place') =
        .ok (Value.setOf values') := by
  cases hf : element.foreign with
  | true =>
    rw [decodeAt_collection hreg, guardNull_present rfl, decodeCollection_foreign hreg _ hf] at hok
    cases hok
  | false =>
    obtain ⟨values, hr, rfl⟩ := (decodeAt_set_eq_ok_iff hreg hb hf).mp hok
    obtain ⟨values', hr', hperm⟩ := List.perm_comp_forall₂ h.symm hr
    refine ⟨values, values', hperm.symm, fun v hv => ?_, rfl, ?_⟩
    · obtain ⟨n, -, hn⟩ := Matched.exists_partner ⟨elements, hr.flip, .refl elements⟩ v hv
      exact proper_of_decodeAt hreg (hb.imp fun _ => Shape.Bare.constructorFree)
        (hb.imp fun _ => Shape.Bare.properDefaults) _ _ v hn
    · exact (decodeAt_set_eq_ok_iff hreg hb hf).mpr ⟨values', hr', rfl⟩

/-- From an array in two orders a set is decoded or not alike, and if it is free of NaN the two
are equal. -/
theorem decodeAt_set_of_perm (hreg : ctx.registry = Registry.defaults) {element : Shape α}
    (hb : element.Everywhere Shape.Bare) (nullable : Bool) {elements elements' : List Node}
    (h : elements.Perm elements') (site site' : Site) (place place' : Place) :
    ((∃ v, ctx.decodeAt (.collection .set element nullable) site (.array elements place) = .ok v) ↔
      ∃ v, ctx.decodeAt (.collection .set element nullable) site' (.array elements' place') =
        .ok v) ∧
      ∀ v v',
        ctx.decodeAt (.collection .set element nullable) site (.array elements place) = .ok v →
        ctx.decodeAt (.collection .set element nullable) site' (.array elements' place') = .ok v' →
        v.NaNFree → v'.NaNFree ∧ v.equals v' = true ∧ v'.equals v = true := by
  constructor
  · constructor
    · rintro ⟨v, hv⟩
      obtain ⟨values, values', -, -, -, hv'⟩ := exists_set_of_perm hreg hb h site' place' hv
      exact ⟨_, hv'⟩
    · rintro ⟨v, hv⟩
      obtain ⟨values, values', -, -, -, hv'⟩ := exists_set_of_perm hreg hb h.symm site place hv
      exact ⟨_, hv'⟩
  · intro v v' hv hv' hn
    obtain ⟨values, values', hperm, hp, rfl, hok⟩ := exists_set_of_perm hreg hb h site' place' hv
    rw [hok] at hv'
    cases hv'
    have hnan : ∀ x ∈ values, x.NaNFree := Value.nanFree_of_setOf hp hn
    obtain ⟨hforth, hback⟩ := Value.setOf_equals_of_perm hperm fun x hx => ⟨hp x hx, hnan x hx⟩
    exact ⟨Value.nanFree_setOf fun x hx => hnan x (hperm.symm.subset hx), hforth, hback⟩

open Value in
/-- **A set does not depend on the order of its elements.** Made of a list, it keeps an element
exactly if none kept before equals it. Of elements that are proper and free of NaN it is the
same in whatever order they come, and so is a set decoded from an array: it can be decoded in
every order or in none, and what comes out is equal if it is free of NaN. -/
theorem setOf_order :
    (∀ xs : List (Value α), ∃ keep : Nat → Bool,
      setOf xs = .set (chosen keep xs) ∧
        (∀ i x, xs[i]? = some x → (keep i = true ↔
          ∀ j y, j < i → keep j = true → xs[j]? = some y → y.equals x = false)) ∧
        (∀ i x, xs[i]? = some x → keep i = false →
          ∃ j y, j < i ∧ keep j = true ∧ xs[j]? = some y ∧ y.equals x = true) ∧
        (chosen keep xs).Pairwise (fun x y => x.equals y = false) ∧
        setOf (chosen keep xs) = .set (chosen keep xs)) ∧
      (∀ xs ys : List (Value α), xs.Perm ys → (∀ x ∈ xs, x.Proper ∧ x.NaNFree) →
        (setOf xs).equals (setOf ys) = true ∧ (setOf ys).equals (setOf xs) = true) ∧
      ∀ (ctx : Context α) (element : Shape α) (nullable : Bool) (site site' : Site)
        (elements elements' : List Node) (place place' : Place),
        ctx.registry = Registry.defaults → element.Everywhere Shape.Bare →
        elements.Perm elements' →
        ((∃ v, ctx.decodeAt (.collection .set element nullable) site (.array elements place) =
            .ok v) ↔
          ∃ v, ctx.decodeAt (.collection .set element nullable) site' (.array elements' place') =
            .ok v) ∧
        ∀ v v',
          ctx.decodeAt (.collection .set element nullable) site (.array elements place) = .ok v →
          ctx.decodeAt (.collection .set element nullable) site' (.array elements' place') =
            .ok v' →
          v.NaNFree → v'.NaNFree ∧ v.equals v' = true ∧ v'.equals v = true := by
  refine ⟨setOf_chosen, fun xs ys => setOf_equals_of_perm, ?_⟩
  intro ctx element nullable site site' elements elements' place place' hreg hb h
  exact decodeAt_set_of_perm hreg hb nullable h site site' place place'

/-- Groups of paths. -/
def groupsShape : Shape Unit :=
  .collection .set (.collection .set (.leaf .path false) false) false

/-- Three groups written as texts, the first two with the same paths in different spellings. -/
def groupNodes : List Node :=
  [.string "a/b, c" ⟨.unknown, "<root>[0]"⟩, .string "c, a//b" ⟨.unknown, "<root>[1]"⟩,
    .string "d" ⟨.unknown, "<root>[2]"⟩]

/-- What each of the groups gives, in the order of the nodes. -/
def groupValues : List (Value Unit) :=
  [.setOf [.path ⟨"a/b"⟩, .path ⟨"c"⟩], .setOf [.path ⟨"c"⟩, .path ⟨"a//b"⟩], .setOf [.path ⟨"d"⟩]]

theorem nanFree_groupValues : (Value.setOf groupValues).NaNFree := by
  have hpath : ∀ p : Path, (Value.path p : Value Unit).NaNFree := by
    intro p
    exact Value.everywhere_iff.mpr ⟨trivial, fun c hc => by cases hc⟩
  refine Value.nanFree_setOf fun x hx => ?_
  simp only [groupValues, List.mem_cons, List.not_mem_nil, or_false] at hx
  rcases hx with rfl | rfl | rfl <;> exact Value.nanFree_setOf (by simp [hpath])

/-- The groups in the opposite order make the same set. -/
theorem decodeAt_groups :
    (ofRegistry (α := Unit) .defaults).registry = .defaults ∧
      (Shape.collection .set (.leaf .path false) false : Shape Unit).Everywhere Shape.Bare ∧
      groupNodes.Perm groupNodes.reverse ∧
      (ofRegistry (α := Unit) .defaults).decodeAt groupsShape []
        (.array groupNodes ⟨.unknown, "<root>"⟩) = .ok (.setOf groupValues) ∧
      (ofRegistry (α := Unit) .defaults).decodeAt groupsShape []
        (.array groupNodes.reverse ⟨.unknown, "<root>"⟩) = .ok (.setOf groupValues.reverse) ∧
      (Value.setOf groupValues).NaNFree ∧
      (Value.setOf groupValues).equals (.setOf groupValues.reverse) = true ∧
      (Value.setOf groupValues.reverse).equals (.setOf groupValues) = true := by
  have hreg : (ofRegistry (α := Unit) .defaults).registry = .defaults := rfl
  have hbare : (Shape.collection .set (.leaf .path false) false : Shape Unit).Everywhere
      Shape.Bare := ⟨trivial, trivial⟩
  have hperm : groupNodes.Perm groupNodes.reverse := groupNodes.reverse_perm.symm
  have hforth : (ofRegistry (α := Unit) .defaults).decodeAt groupsShape []
      (.array groupNodes ⟨.unknown, "<root>"⟩) = .ok (.setOf groupValues) := rfl
  have hback : (ofRegistry (α := Unit) .defaults).decodeAt groupsShape []
      (.array groupNodes.reverse ⟨.unknown, "<root>"⟩) = .ok (.setOf groupValues.reverse) := rfl
  obtain ⟨-, -, hdecode⟩ := setOf_order (α := Unit)
  obtain ⟨-, hequal⟩ := hdecode _ _ false [] [] _ _ ⟨.unknown, "<root>"⟩ ⟨.unknown, "<root>"⟩
    hreg hbare hperm
  exact ⟨hreg, hbare, hperm, hforth, hback, nanFree_groupValues,
    (hequal _ _ hforth hback nanFree_groupValues).2⟩

end Context
end TypedConfig
