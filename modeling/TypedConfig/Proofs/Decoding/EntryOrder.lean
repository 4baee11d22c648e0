/-
# The order of keys does not matter

A tree and a copy of it in which the entries of maps stand in another order are
decoded alike (`decodeAt_reordered`): both give values, which differ at most in the
order of the entries of maps, or both fail, for the same causes. Only a shape of a
map lets the order of entries show, in its value as in its failure; without one the
failures are the same.

The induction is on the shape, with two nodes and two sites at once. Fields are
looked up by their keys, elements stand at the same places, and what a map does
with its entries it does with each alone.

Key definitions: `Failure.leaves`, `Failure.SameLeaves`, `Shape.Unmapped`.
Key theorems: `Context.materialize_reordered`, `Context.decodeMap_reordered`,
`Context.compared_reordered`, `Context.decodeAt_reordered`.
-/
import TypedConfig.Proofs.Comparison
import TypedConfig.Proofs.Decoding.Soundness
import TypedConfig.Proofs.Value.EntryOrder

namespace TypedConfig

variable {α : Type}

/-! ### The causes of a failure -/

namespace Failure

mutual

/-- The failures at the bottom, which hold no others, in order. -/
def leaves : Failure → List Failure
  | .elements _ _ ⟨first, rest⟩ => first.leaves ++ leavesOf rest
  | .field _ ⟨first, rest⟩ => first.leaves ++ leavesOf rest
  | .record _ _ _ ⟨first, rest⟩ => first.leaves ++ leavesOf rest
  | .several ⟨first, rest⟩ => first.leaves ++ leavesOf rest
  | failure => [failure]

/-- The failures at the bottom of all of them, in order. -/
def leavesOf : List Failure → List Failure
  | [] => []
  | failure :: rest => failure.leaves ++ leavesOf rest

end

theorem leavesOf_eq_flatMap : ∀ fs : List Failure, leavesOf fs = fs.flatMap leaves
  | [] => rfl
  | f :: fs => by rw [leavesOf, leavesOf_eq_flatMap fs, List.flatMap_cons]

theorem leaves_elements (collection path : String) (fs : Failures) :
    (Failure.elements collection path fs).leaves = leavesOf fs.toList := by
  rw [leaves]
  rfl

theorem leaves_field (name : String) (fs : Failures) :
    (Failure.field name fs).leaves = leavesOf fs.toList := by
  rw [leaves]
  rfl

theorem leaves_record (shape : String) (position : Position) (path : String) (fs : Failures) :
    (Failure.record shape position path fs).leaves = leavesOf fs.toList := by
  rw [leaves]
  rfl

/-- The same failures are at the bottom, in any order; where it is asked to be exact, the
failures are the same. -/
structure SameLeaves (exact : Prop) (fs gs : List Failure) : Prop where
  perm : (leavesOf fs).Perm (leavesOf gs)
  eq : exact → fs = gs

variable {exact : Prop} {fs gs gs' : List Failure}

theorem SameLeaves.refl (fs : List Failure) : SameLeaves exact fs fs := ⟨.refl _, fun _ => rfl⟩

theorem sameLeaves_additive : Outcome.Additive (SameLeaves exact) where
  nil := .refl []
  append h h' := by
    refine ⟨?_, fun he => by rw [h.eq he, h'.eq he]⟩
    simp only [leavesOf_eq_flatMap, List.flatMap_append]
    rw [← leavesOf_eq_flatMap, ← leavesOf_eq_flatMap, ← leavesOf_eq_flatMap, ← leavesOf_eq_flatMap]
    exact h.perm.append h'.perm

theorem SameLeaves.trans_perm (he : ¬ exact) (h : SameLeaves exact fs gs) (hp : gs.Perm gs') :
    SameLeaves exact fs gs' := by
  refine ⟨h.perm.trans ?_, fun hexact => absurd hexact he⟩
  rw [leavesOf_eq_flatMap, leavesOf_eq_flatMap]
  exact hp.flatMap_right leaves

/-- A failure that holds others has their leaves. -/
theorem SameLeaves.cause {fs gs : Failures} {cause : Failures → Failure}
    (hcause : ∀ fs, (cause fs).leaves = leavesOf fs.toList)
    (h : SameLeaves exact fs.toList gs.toList) : SameLeaves exact [cause fs] [cause gs] := by
  refine ⟨?_, fun he => by rw [NonEmpty.toList_injective (h.eq he)]⟩
  rw [leavesOf_eq_flatMap, leavesOf_eq_flatMap, List.flatMap_singleton, List.flatMap_singleton,
    hcause, hcause]
  exact h.perm

theorem SameLeaves.wrap {β γ : Type} {r : β → γ → Prop} {o : Outcome β} {o' : Outcome γ}
    {cause : Failures → Failure} (hcause : ∀ fs, (cause fs).leaves = leavesOf fs.toList)
    (h : Outcome.Compared r (SameLeaves exact) o o') :
    Outcome.Compared r (SameLeaves exact) (o.wrap cause) (o'.wrap cause) :=
  h.wrap fun _ _ => SameLeaves.cause hcause

end Failure

namespace Shape

/-- A shape that is no map, said of the shape without its parts. -/
def Unmapped : Shape α → Prop
  | .map .. => False
  | _ => True

end Shape

namespace Context

open Entries (Beside)
open Failure (SameLeaves)
open Outcome (Compared)

variable {ctx : Context α} {exact : Prop} {node node' : Node} {site site' : Site}

/-! ### Nodes -/

theorem elements?_reordered (hpre : ctx.preprocessors = []) (h : node.Reordered node') :
    Option.Rel (List.Forall₂ Node.Reordered) (ctx.elements? node) (ctx.elements? node') := by
  cases h with
  | scalar h =>
    cases node with
    | string value place =>
      refine .some (List.forall₂_same.mpr fun n hn => ?_)
      obtain ⟨piece, -, rfl⟩ := List.mem_map.mp hn
      exact .scalar rfl
    | map entries place => cases h
    | array elements place => cases h
    | _ => exact .none
  | array h =>
    rw [elements?, elements?, funext (preprocess_eq_self hpre), List.map_id', List.map_id']
    exact .some h
  | map hk h hp => exact .none

theorem resolveField_reordered (h : node.Reordered node') (name : String) :
    (ctx.resolveField node name).Reordered (ctx.resolveField node' name) := by
  rw [resolveField, resolveField]
  induction ctx.spellings with
  | nil => exact .scalar rfl
  | cons spelling spellings ih =>
    have hchild := h.atKey (spelling name)
    rw [List.map_cons, List.map_cons, List.find?_cons, List.find?_cons, hchild.isDefined_eq]
    cases (node.atKey (spelling name)).isDefined with
    | true => exact hchild
    | false => exact ih

/-! ### Guards and leaves -/

/-- Values that differ in the order of entries, or failures with the same leaves. -/
abbrev Agree (exact : Prop) : Outcome (Value α) → Outcome (Value α) → Prop :=
  Compared Value.Reordered (SameLeaves exact)

theorem Agree.refl (o : Outcome (Value α)) : Agree exact o o :=
  Compared.refl Value.Reordered.refl SameLeaves.refl o

variable {decoded decoded' : Outcome (Value α)}

theorem guardNull_reordered (h : node.Reordered node') (hd : Agree exact decoded decoded')
    (nullable : Bool) :
    Agree exact (guardNull nullable node decoded) (guardNull nullable node' decoded') := by
  cases h with
  | scalar h =>
    rcases node.absent_or_present with rfl | ⟨place, rfl⟩ | hp
    · exact Agree.refl _
    · exact Agree.refl _
    · rwa [guardNull_present hp, guardNull_present hp]
  | array h => exact hd
  | map hk h hp => exact hd

theorem guardRecord_reordered (h : node.Reordered node') (hd : Agree exact decoded decoded')
    (shape : Shape α) :
    Agree exact (guardRecord shape node decoded) (guardRecord shape node' decoded') := by
  cases h with
  | scalar h =>
    cases node with
    | undefined =>
      rw [guardRecord, guardRecord]
      split
      · exact .refl _
      · exact hd
    | map entries place => cases h
    | _ => exact .refl _
  | array h => exact .refl _
  | map hk h hp => exact hd

theorem decodeLeaf_reordered (h : node.Reordered node') (kind : Leaf) (text : String) :
    decodeLeaf (α := α) kind text node' = decodeLeaf kind text node := by
  cases h with
  | scalar h => rfl
  | array h => cases kind <;> rfl
  | map hk h hp => cases kind <;> rfl

/-! ### Collections and maps -/

theorem collect_reordered (kind : Collection) {values values' : List (Value α)}
    (h : List.Forall₂ Value.Reordered values values') :
    (kind.collect values).Reordered (kind.collect values') := by
  cases kind with
  | list => exact .list h
  | set => exact .setOf h

theorem decodeCollection_reordered (hreg : ctx.registry = Registry.defaults)
    (hpre : ctx.preprocessors = []) {element : Shape α}
    (ih : ∀ site site' node node', node.Reordered node' →
      Agree exact (ctx.decodeAt element site node) (ctx.decodeAt element site' node'))
    (h : node.Reordered node') (kind : Collection) :
    Agree exact (ctx.decodeCollection kind element (ctx.decodeAt element) site node)
      (ctx.decodeCollection kind element (ctx.decodeAt element) site' node') := by
  cases he : element.foreign with
  | true =>
    rw [decodeCollection_foreign hreg kind he, decodeCollection_foreign hreg kind he]
    exact .refl _
  | false =>
    rw [decodeCollection_builtin hreg kind he, decodeCollection_builtin hreg kind he]
    have helements := elements?_reordered hpre h
    generalize ctx.elements? node = nodes?, ctx.elements? node' = nodes'? at helements
    cases helements with
    | none =>
      have hsame : Failure.ofCollection kind.name node' = .ofCollection kind.name node := by
        cases h <;> rfl
      dsimp only
      rw [hsame]
      exact .refl _
    | some hnodes =>
      have hparts := forall₂_mapIdx hnodes fun i n n' hn => ih (i :: site) (i :: site') n n' hn
      have hpath : node'.path? = node.path? := by rw [Node.path?, Node.path?, h.place?_eq]
      dsimp only
      rw [hpath]
      have hall := Compared.sequence Failure.sameLeaves_additive hparts
      exact (SameLeaves.wrap (Failure.leaves_elements _ _) hall).map
        fun _ _ => collect_reordered kind

theorem decodeEntry_reordered (hpre : ctx.preprocessors = []) {value : Shape α}
    (ih : ∀ site site' node node', node.Reordered node' →
      Agree exact (ctx.decodeAt value site node) (ctx.decodeAt value site' node'))
    {e e' : String × Node} (h : Beside Node.Reordered e e') :
    Compared (Beside Value.Reordered) (SameLeaves exact)
      (ctx.decodeEntry (ctx.decodeAt value) site e)
      (ctx.decodeEntry (ctx.decodeAt value) site' e') := by
  obtain ⟨key, hnode⟩ := h
  rw [decodeEntry, decodeEntry, preprocess_eq_self hpre, preprocess_eq_self hpre]
  have hvalue := SameLeaves.wrap (Failure.leaves_field key) (ih site site' _ _ hnode)
  exact hvalue.map fun _ _ => Beside.intro key

/-- A map decodes its entries one by one, in whatever order, under keys that differ. -/
theorem decodeMap_reordered (hreg : ctx.registry = Registry.defaults)
    (hpre : ctx.preprocessors = []) (hexact : ¬ exact) {value : Shape α}
    (ih : ∀ site site' node node', node.Reordered node' →
      Agree exact (ctx.decodeAt value site node) (ctx.decodeAt value site' node'))
    (h : node.Reordered node') :
    Agree exact (ctx.decodeMap value (ctx.decodeAt value) site node)
      (ctx.decodeMap value (ctx.decodeAt value) site' node') := by
  cases h with
  | scalar h =>
    have hno : ∀ entries place, node ≠ .map entries place := by
      rintro entries place rfl
      cases h
    rw [decodeMap_no_map _ _ _ hno, decodeMap_no_map _ _ _ hno]
    exact .refl _
  | array h => exact .refl _
  | @map es middle fs place hk h hp =>
    cases hv : value.foreign with
    | true =>
      rw [decodeMap_foreign hreg hv, decodeMap_foreign hreg hv]
      exact .refl _
    | false =>
      rw [decodeMap_builtin hreg hv, decodeMap_builtin hreg hv]
      have hparts : Matched (Compared (Beside Value.Reordered) (SameLeaves exact))
          (es.mapIdx fun i e => ctx.decodeEntry (ctx.decodeAt value) (i :: site) e)
          (fs.mapIdx fun i e => ctx.decodeEntry (ctx.decodeAt value) (i :: site') e) :=
        Matched.mapIdx ⟨middle, h, hp⟩ fun i j _ _ => decodeEntry_reordered hpre ih
      have hall := Compared.sequence_matched Failure.sameLeaves_additive
        (fun _ _ _ => SameLeaves.trans_perm hexact) hparts
      rcases hall.results_or_failures with
        ⟨pairs, pairs', ho, ho', hpairs⟩ | ⟨gs, gs', ho, ho', hgs⟩
      · have hkeys : Entries.keys pairs = Entries.keys es :=
          keys_of_decodeEntry (Outcome.sequence_eq_ok_iff.mp ho)
        have hnodup : (Entries.keys pairs).Nodup := hkeys ▸ hk
        obtain ⟨between, hbetween, hperm⟩ := hpairs
        have hnodup' : (Entries.keys pairs').Nodup := by
          rw [Entries.keys_of_forall₂ hbetween] at hnodup
          exact (hperm.map _).nodup_iff.mp hnodup
        rw [ho, ho']
        refine .ok ?_
        dsimp only
        rw [Entries.ofPairs_eq_self hnodup, Entries.ofPairs_eq_self hnodup']
        exact .map hnodup hbetween hperm
      · rw [ho, ho']
        exact .fail (SameLeaves.cause (Failure.leaves_elements _ _) hgs)

/-! ### Records -/

theorem bindField_reordered (hpre : ctx.preprocessors = []) {field : ShapeField α}
    (ih : ∀ site site' node node', node.Reordered node' →
      Agree exact (ctx.decodeAt field.shape site node) (ctx.decodeAt field.shape site' node'))
    (h : node.Reordered node') :
    Compared (Option.Rel Value.Reordered) (SameLeaves exact)
      (ctx.bindField field (ctx.decodeAt field.shape) site node)
      (ctx.bindField field (ctx.decodeAt field.shape) site' node') := by
  have hrefl : ∀ o : Outcome (Option (Value α)),
      Compared (Option.Rel Value.Reordered) (SameLeaves exact) o o :=
    Compared.refl (fun v? => by cases v? <;> constructor; exact .refl _) SameLeaves.refl
  rw [bindField, bindField, preprocess_eq_self hpre, preprocess_eq_self hpre]
  have hchild : (ctx.resolveField node field.name).Reordered (ctx.resolveField node' field.name) :=
    resolveField_reordered h field.name
  generalize ctx.resolveField node field.name = child,
    ctx.resolveField node' field.name = child' at hchild ⊢
  have hdecoded : Compared (Option.Rel Value.Reordered) (SameLeaves exact)
      ((ctx.decodeAt field.shape site child).map some)
      ((ctx.decodeAt field.shape site' child').map some) :=
    (ih site site' child child' hchild).map fun _ _ => .some
  cases hchild with
  | scalar h =>
    cases child with
    | undefined => exact hrefl _
    | null place => exact hrefl _
    | _ => exact hdecoded
  | array h => exact hdecoded
  | map hk h hp => exact hdecoded

theorem nameOutcome_reordered (field : ShapeField α) {o o' : Outcome (Option (Value α))}
    (h : Compared (Option.Rel Value.Reordered) (SameLeaves exact) o o') :
    Compared (Option.Rel (Beside Value.Reordered)) (SameLeaves exact) (nameOutcome field o)
      (nameOutcome field o') := by
  refine (SameLeaves.wrap (Failure.leaves_field field.name) h).map fun v? v'? hv => ?_
  cases hv with
  | none => exact .none
  | some hv => exact .some (.intro field.name hv)

theorem zipWith_fieldOutcomes (fields : List (ShapeField α)) :
    List.zipWith nameOutcome fields (ctx.fieldOutcomes fields site node) =
      fields.mapIdx fun i field =>
        nameOutcome field (ctx.bindField field (ctx.decodeAt field.shape) (i :: site) node) := by
  apply List.ext_getElem (by simp [fieldOutcomes])
  intro i _ _
  simp [fieldOutcomes]

/-- The record of bound fields, with the defaults of those left out. -/
theorem materialize_reordered (declared : List (Declaration α)) {bound bound' : Entries (Value α)}
    (h : List.Forall₂ (Beside Value.Reordered) bound bound') :
    List.Forall₂ (Beside Value.Reordered) (Arguments.materialize ⟨declared, bound⟩)
      (Arguments.materialize ⟨declared, bound'⟩) := by
  refine Entries.forall₂_ofPairs (List.rel_filterMap ?_ (List.forall₂_same.mpr fun _ _ => rfl))
  rintro d _ rfl
  have hfound := Entries.lookup_of_forall₂ h d.name
  simp only [Arguments.value?]
  generalize bound.lookup d.name = v?, bound'.lookup d.name = v'? at hfound
  cases hfound with
  | some hv => exact .some (.intro d.name hv)
  | none =>
    dsimp only
    cases (declared.find? (·.name == d.name)).bind (·.default?) with
    | none => exact .none
    | some v => exact .some (.intro d.name (.refl v))

theorem buildRecord_reordered {fields : List (ShapeField α)}
    {outcomes outcomes' : List (Outcome (Option (String × Value α)))} (name : String)
    (hnode : node.Reordered node')
    (h : List.Forall₂ (Compared (Option.Rel (Beside Value.Reordered)) (SameLeaves exact))
      outcomes outcomes') :
    Agree exact (buildRecord name fields none site node outcomes)
      (buildRecord name fields none site' node' outcomes') := by
  have hplace : node'.position = node.position ∧ node'.pathOrRoot = node.pathOrRoot := by
    cases hnode <;> exact ⟨rfl, rfl⟩
  rw [buildRecord, buildRecord, hplace.1, hplace.2]
  rcases (Compared.sequence Failure.sameLeaves_additive h).results_or_failures with
    ⟨bound, bound', ho, ho', hbound⟩ | ⟨fs, gs, ho, ho', hfs⟩
  · rw [ho, ho']
    refine .ok (.record (materialize_reordered _ (Entries.forall₂_ofPairs ?_)))
    exact List.rel_filterMap (fun _ _ => id) hbound
  · rw [ho, ho']
    exact .fail (SameLeaves.cause (Failure.leaves_record _ _ _) hfs)

/-! ### All levels -/

theorem compared_reordered (hreg : ctx.registry = Registry.defaults)
    (hpre : ctx.preprocessors = []) {shape : Shape α} :
    shape.Everywhere Shape.ConstructorFree → (exact → shape.Everywhere Shape.Unmapped) →
      ∀ (site site' : Site) (node node' : Node), node.Reordered node' →
        Agree exact (ctx.decodeAt shape site node) (ctx.decodeAt shape site' node') := by
  induction shape using Shape.induction with
  | leaf kind nullable =>
    intro hc hexact site site' node node' h
    cases hf : (Shape.leaf (α := α) kind nullable).foreign with
    | true =>
      rw [decodeAt_foreign hreg hf, decodeAt_foreign hreg hf]
      exact .refl _
    | false =>
      rw [decodeAt_leaf hreg hf, decodeAt_leaf hreg hf, decodeLeaf_reordered h]
      exact guardNull_reordered h (.refl _) nullable
  | collection kind element nullable ih =>
    intro hc hexact site site' node node' h
    rw [decodeAt_collection hreg, decodeAt_collection hreg]
    refine guardNull_reordered h (decodeCollection_reordered hreg hpre ?_ h kind) nullable
    exact ih hc.element fun he => (hexact he).element
  | map value nullable ih =>
    intro hc hexact site site' node node' h
    have hno : ¬ exact := fun he => (hexact he).self
    rw [decodeAt_map hreg, decodeAt_map hreg]
    refine guardNull_reordered h (decodeMap_reordered hreg hpre hno ?_ h) nullable
    exact ih hc.value fun he => (hexact he).value
  | record name fields constructor? nullable ih =>
    intro hc hexact site site' node node' h
    have hnone : constructor? = none := hc.self
    subst hnone
    rw [decodeAt_record hreg, decodeAt_record hreg, zipWith_fieldOutcomes, zipWith_fieldOutcomes]
    refine guardRecord_reordered h (buildRecord_reordered name h ?_) _
    refine forall₂_mapIdx (forall₂_self fields) ?_
    rintro i field _ ⟨rfl, hf⟩
    refine nameOutcome_reordered field (bindField_reordered hpre ?_ h)
    exact ih field hf (hc.field hf) fun he => (hexact he).field hf

/-- **The order of keys does not matter.** If the entries of maps, at any depth, stand in
another order, decoding without constructors and preprocessors gives a value of either tree or
of none. The two values differ at most in the order of the entries of maps; two failures have
the same leaves, and they are the same if the shape holds no map. -/
theorem decodeAt_reordered (hreg : ctx.registry = Registry.defaults)
    (hpre : ctx.preprocessors = []) {shape : Shape α}
    (hc : shape.Everywhere Shape.ConstructorFree) (h : node.Reordered node') (site site' : Site) :
    (∃ value value',
      ctx.decodeAt shape site node = .ok value ∧ ctx.decodeAt shape site' node' = .ok value' ∧
        value.Reordered value') ∨
      ∃ failures failures' : Failures,
        ctx.decodeAt shape site node = .error failures ∧
        ctx.decodeAt shape site' node' = .error failures' ∧
        (Failure.leavesOf failures.toList).Perm (Failure.leavesOf failures'.toList) ∧
        (shape.Everywhere Shape.Unmapped → failures = failures') := by
  rcases (compared_reordered hreg hpre hc id site site' node node' h).results_or_failures with
    ⟨value, value', hv, hv', hr⟩ | ⟨fs, gs, hf, hg, hleaves⟩
  · exact Or.inl ⟨value, value', hv, hv', hr⟩
  · exact Or.inr ⟨fs, gs, hf, hg, hleaves.perm, fun he => NonEmpty.toList_injective (hleaves.eq he)⟩

/-- A site has a name and ports by purpose. -/
def siteShape : Shape Unit :=
  .record "Site"
    [⟨"name", .leaf .string false, none⟩, ⟨"ports", .map (.leaf .long false) false, none⟩] none
    false

/-- Two things in this or in the other order. -/
def inOrder {β : Type} (turned : Bool) (b c : β) : List β := if turned then [c, b] else [b, c]

/-- A site with two ports, at both levels in this or in the other order. -/
def siteNode (turned : Bool) : Node :=
  .map
    (inOrder turned ("name", .string "web" ⟨.unknown, "<root>.name"⟩)
      ("ports", .map
        (inOrder turned ("http", .long 80 ⟨.unknown, "<root>.ports.http"⟩)
          ("admin", .long 81 ⟨.unknown, "<root>.ports.admin"⟩))
        ⟨.unknown, "<root>.ports"⟩))
    ⟨.unknown, "<root>"⟩

/-- The site with its ports in this or in the other order. -/
def siteValue (turned : Bool) : Value Unit :=
  .record "Site"
    [("name", .string "web"), ("ports", .map (inOrder turned ("http", .long 80) ("admin", .long 81)))]

theorem reordered_siteNode : (siteNode false).Reordered (siteNode true) := by
  have hswap : ∀ {β : Type} (b c : β), (inOrder false b c).Perm (inOrder true b c) :=
    fun b c => .swap c b []
  refine .map (by decide) (.cons (.intro _ (.scalar rfl)) (.cons (.intro _ ?_) .nil)) (hswap _ _)
  exact .map (by decide)
    (.cons (.intro _ (.scalar rfl)) (.cons (.intro _ (.scalar rfl)) .nil)) (hswap _ _)

/-- The same site in two orders. -/
theorem decodeAt_sites :
    (siteNode false).Reordered (siteNode true) ∧ siteShape.Everywhere Shape.ConstructorFree ∧
      (ofRegistry .defaults).decodeAt siteShape [] (siteNode false) = .ok (siteValue false) ∧
      (ofRegistry .defaults).decodeAt siteShape [] (siteNode true) = .ok (siteValue true) ∧
      (siteValue false).Reordered (siteValue true) := by
  have hc : siteShape.Everywhere Shape.ConstructorFree := by
    simp [siteShape, Shape.Everywhere, Shape.EveryField, Shape.ConstructorFree]
  have hv : (ofRegistry .defaults).decodeAt siteShape [] (siteNode false) =
    .ok (siteValue false) := rfl
  have hv' : (ofRegistry .defaults).decodeAt siteShape [] (siteNode true) =
    .ok (siteValue true) := rfl
  have hreg : (ofRegistry (α := Unit) .defaults).registry = .defaults := rfl
  have hpre : (ofRegistry (α := Unit) .defaults).preprocessors = [] := rfl
  refine ⟨reordered_siteNode, hc, hv, hv', ?_⟩
  rcases decodeAt_reordered hreg hpre hc reordered_siteNode [] [] with
    ⟨w, w', h, h', hr⟩ | ⟨fs, gs, h, -⟩
  · rw [hv] at h
    rw [hv'] at h'
    cases h
    cases h'
    exact hr
  · rw [hv] at h
    cases h

end Context
end TypedConfig
