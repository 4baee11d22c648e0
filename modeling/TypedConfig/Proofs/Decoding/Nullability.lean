/-
# More nullable shapes

A shape may be made to accept null in more places (`Shape.MoreNullable`). What is
decoded as the shape is decoded as the other one with the same value; and what is
decoded as the other one, with a value that holds no null, is decoded as the shape
with the same value (`decodeAt_moreNullable`). Null is acceptable or not in three
places: in front of a decoder, in front of a record and for a field. In each of
them one lemma says what it takes to get the same value with another shape, for both
directions (`guardNull_transfer`, `guardRecord_transfer`, `bindField_transfer`).

The way back asks of a value what its parts asked of theirs. A set could hide the
null in an element that equals one kept before. It does not if the elements are
proper, and they are if the defaults are; a set that is declared as a default and
holds an element twice may hide one (`decodeAt_doubledDefault`).

Key definitions: `Field.Beside`, `Shape.MoreNullable`.
Key theorems: `Context.decodeAt_of_moreNullable`, `Context.decodeAt_of_nullFree`,
`Context.decodeAt_moreNullable`.
-/
import TypedConfig.Proofs.Comparison
import TypedConfig.Proofs.Decoding.Proper
import TypedConfig.Proofs.Node
import TypedConfig.Proofs.Value.NullFree

namespace TypedConfig

variable {α : Type}

/-- Two fields have one name, one default and related shapes. -/
inductive Field.Beside {α σ τ : Type} (r : σ → τ → Prop) : Field α σ → Field α τ → Prop
  | intro (name : String) (default? : Option (Value α)) {s : σ} {t : τ} (h : r s t) :
      Beside r ⟨name, s, default?⟩ ⟨name, t, default?⟩

namespace Shape

/-- The second shape is the first with null acceptable at more places, at any depth. -/
inductive MoreNullable : Shape α → Shape α → Prop
  | leaf {kind : Leaf} {n n' : Bool} (hn : n = true → n' = true) :
      MoreNullable (.leaf kind n) (.leaf kind n')
  | collection {kind : Collection} {element element' : Shape α} {n n' : Bool}
      (hn : n = true → n' = true) (h : MoreNullable element element') :
      MoreNullable (.collection kind element n) (.collection kind element' n')
  | map {value value' : Shape α} {n n' : Bool} (hn : n = true → n' = true)
      (h : MoreNullable value value') : MoreNullable (.map value n) (.map value' n')
  | record {name : String} {fields fields' : List (Field α (Shape α))}
      {constructor? : Option (Constructor α)} {n n' : Bool} (hn : n = true → n' = true)
      (h : List.Forall₂ (Field.Beside MoreNullable) fields fields') :
      MoreNullable (.record name fields constructor? n) (.record name fields' constructor? n')

variable {shape shape' : Shape α}

namespace MoreNullable

theorem nullable (h : shape.MoreNullable shape') :
    shape.nullable = true → shape'.nullable = true := by
  cases h with
  | leaf hn => exact hn
  | collection hn h => exact hn
  | map hn h => exact hn
  | record hn h => exact hn

theorem foreign_eq (h : shape.MoreNullable shape') : shape'.foreign = shape.foreign := by
  cases h with
  | @leaf kind n n' hn => cases kind <;> rfl
  | _ => rfl

/-- What holds of a shape of which null is acceptable at fewer places holds everywhere. -/
theorem everywhere {P : Shape α → Prop}
    (hP : ∀ s s' : Shape α, s.MoreNullable s' → P s → P s') :
    ∀ {shape' : Shape α}, shape.MoreNullable shape' → shape.Everywhere P →
      shape'.Everywhere P := by
  induction shape using Shape.induction with
  | leaf kind nullable =>
    intro shape' h hs
    have hself : P shape' := hP _ _ h hs.self
    cases h
    exact hself
  | collection kind element nullable ih =>
    intro shape' h hs
    have hself : P shape' := hP _ _ h hs.self
    cases h with
    | collection hn h => exact ⟨hself, ih h hs.element⟩
  | map value nullable ih =>
    intro shape' h hs
    have hself : P shape' := hP _ _ h hs.self
    cases h with
    | map hn h => exact ⟨hself, ih h hs.value⟩
  | record name fields constructor? nullable ih =>
    intro shape' h hs
    have hself : P shape' := hP _ _ h hs.self
    cases h with
    | record hn h =>
      refine everywhere_record_iff.mpr ⟨hself, fun field' hf' => ?_⟩
      obtain ⟨field, hf, hb⟩ := (Matched.of_forall₂ h).exists_partner_of field' hf'
      cases hb with
      | intro name default? hshape => exact ih _ hf hshape (hs.field hf)

end MoreNullable

theorem constructorFree_of_moreNullable (h : shape.MoreNullable shape')
    (hs : shape.ConstructorFree) : shape'.ConstructorFree := by
  cases h with
  | record hn h => exact hs
  | _ => exact trivial

theorem properDefaults_of_moreNullable (h : shape.MoreNullable shape')
    (hs : shape.ProperDefaults) : shape'.ProperDefaults := by
  cases h with
  | record hn h =>
    intro field' hf' value hd
    obtain ⟨field, hf, hb⟩ := (Matched.of_forall₂ h).exists_partner_of field' hf'
    cases hb with
    | intro name default? hshape => exact hs _ hf value hd
  | _ => exact trivial

end Shape

namespace Arguments

variable {r : Shape α → Shape α → Prop} {fields fields' : List (ShapeField α)}

theorem declarations_of_beside (h : List.Forall₂ (Field.Beside r) fields fields') :
    Shape.declarations fields' = Shape.declarations fields := by
  induction h with
  | nil => rfl
  | cons hb _ ih =>
    cases hb
    rw [Shape.declarations, Shape.declarations] at ih ⊢
    rw [List.map_cons, List.map_cons, ih]

theorem named_zip_of_beside (h : List.Forall₂ (Field.Beside r) fields fields')
    (values : List (Option (Value α))) :
    named (·.2) (fields'.zip values) = named (·.2) (fields.zip values) := by
  induction h generalizing values with
  | nil => rfl
  | cons hb _ ih =>
    cases hb
    cases values with
    | nil => rfl
    | cons value? values =>
      rw [List.zip_cons_cons, List.zip_cons_cons, named_cons, named_cons, ih]

/-- A record is filled without regard to the shapes of its fields. -/
theorem ofBindings_of_beside (h : List.Forall₂ (Field.Beside r) fields fields')
    (values : List (Option (Value α))) : ofBindings fields' values = ofBindings fields values := by
  rw [ofBindings, ofBindings, declarations_of_beside h, named_zip_of_beside h]

/-- Every value that a field is bound to is in the record. -/
theorem exists_entry_of_bound {values : List (Option (Value α))}
    (hnames : (fields.map (·.name)).Nodup) (hlen : fields.length = values.length) {v : Value α}
    (hv : some v ∈ values) : ∃ name, (name, v) ∈ (ofBindings fields values).materialize := by
  have hm : some v ∈ (fields.zip values).map (·.2) := by rwa [List.map_snd_zip (by omega)]
  obtain ⟨b, hb, hbv⟩ := List.mem_map.mp hm
  rw [materialize_ofBindings hnames hlen]
  exact ⟨b.1.name, List.mem_filterMap.mpr ⟨b, hb, by simp [hbv]⟩⟩

end Arguments

namespace Context

variable {ctx : Context α} {site : Site} {node : Node} {value : Value α}

/-! ### Where null may be acceptable -/

variable {decoded decoded' : Outcome (Value α)} {n n' : Bool}

theorem guardNull_transfer (hn : n = true → value = .null → n' = true)
    (hd : decoded = .ok value → decoded' = .ok value)
    (h : guardNull n node decoded = .ok value) : guardNull n' node decoded' = .ok value := by
  rcases node.absent_or_present with rfl | ⟨place, rfl⟩ | hp
  · cases n with
    | false => cases h
    | true =>
      cases h
      rw [hn rfl rfl]
      rfl
  · cases n with
    | false => cases h
    | true =>
      cases h
      rw [hn rfl rfl]
      rfl
  · rw [guardNull_present hp] at h ⊢
    exact hd h

/-- A record is looked for in a node that is there, whether or not null is acceptable. -/
theorem guardRecord_transfer {name : String} {fields fields' : List (ShapeField α)}
    {constructor? : Option (Constructor α)} (hdefined : node.isDefined = true)
    (hn : n = true → value = .null → n' = true) (hd : decoded = .ok value → decoded' = .ok value)
    (h : guardRecord (.record name fields constructor? n) node decoded = .ok value) :
    guardRecord (.record name fields' constructor? n') node decoded' = .ok value := by
  cases node with
  | undefined => cases hdefined
  | null place =>
    cases n with
    | false => cases h
    | true =>
      cases h
      rw [hn rfl rfl]
      rfl
  | map entries place => exact hd h
  | _ => cases h

theorem bindField_transfer (hpre : ctx.preprocessors = []) {name : String}
    {default? : Option (Value α)} {s s' : Shape α}
    {decodeValue decodeValue' : Site → Node → Outcome (Value α)} {value? : Option (Value α)}
    (hn : s.nullable = true → value? = some .null → s'.nullable = true)
    (hd : ∀ v, value? = some v → ctx.resolveField node name ∈ node.children →
      decodeValue site (ctx.resolveField node name) = .ok v →
      decodeValue' site (ctx.resolveField node name) = .ok v)
    (h : ctx.bindField ⟨name, s, default?⟩ decodeValue site node = .ok value?) :
    ctx.bindField ⟨name, s', default?⟩ decodeValue' site node = .ok value? := by
  have hchild := ctx.resolveField_undefined_or_child node name
  rcases (ctx.resolveField node name).absent_or_present with hc | ⟨place, hc⟩ | hp
  · rw [bindField, preprocess_eq_self hpre, hc] at h ⊢
    dsimp only at h ⊢
    split at h
    · rw [if_pos ‹_›]
      exact h
    · rw [if_neg ‹_›]
      split at h
      · cases h
        rw [if_pos (hn ‹_› rfl)]
      · cases h
  · rw [bindField, preprocess_eq_self hpre, hc] at h ⊢
    dsimp only at h ⊢
    split at h
    · cases h
      rw [if_pos (hn ‹_› rfl)]
    · cases h
  · have hpresent (t : Shape α) (decode : Site → Node → Outcome (Value α)) :
        ctx.bindField ⟨name, t, default?⟩ decode site node =
          (decode site (ctx.resolveField node name)).map some :=
      bindField_present (preprocess_eq_self hpre _) hp decode site
    rw [hpresent, Outcome.map_eq_ok_iff] at h ⊢
    obtain ⟨v, hv, rfl⟩ := h
    have hm : ctx.resolveField node name ∈ node.children := by
      rcases hchild with hc | hm
      · rw [hc] at hp
        cases hp
      · exact hm
    exact ⟨v, hd v rfl hm hv, rfl⟩

/-! ### What decodes a node to a value -/

/-- What holds of all texts and everywhere in a node holds everywhere in its elements. -/
theorem everywhere_of_elements? (hpre : ctx.preprocessors = []) {P : Node → Prop}
    (hP : ∀ s place, P (.string s place)) {nodes : List Node}
    (hn : ctx.elements? node = some nodes) (h : node.Everywhere P) :
    ∀ element ∈ nodes, element.Everywhere P := by
  intro element hm
  cases node with
  | array elements place =>
    rw [elements?, funext (preprocess_eq_self hpre), List.map_id'] at hn
    cases hn
    exact h.child hm
  | string s place =>
    cases hn
    obtain ⟨piece, -, rfl⟩ := List.mem_map.mp hm
    exact Node.everywhere_of_no_children rfl (hP _ _)
  | _ => cases hn

theorem decodeCollection_eq_ok_iff (hreg : ctx.registry = Registry.defaults) {kind : Collection}
    {element : Shape α} (he : element.foreign = false)
    {decodeElement : Site → Node → Outcome (Value α)} :
    ctx.decodeCollection kind element decodeElement site node = .ok value ↔
      ∃ nodes values, ctx.elements? node = some nodes ∧
        (nodes.mapIdx fun i n => decodeElement (i :: site) n) = values.map .ok ∧
          kind.collect values = value := by
  rw [decodeCollection_builtin hreg kind he]
  cases ctx.elements? node with
  | none => simp [Outcome.fail]
  | some nodes => simp [Outcome.gather_eq_ok_iff]

theorem decodeMap_eq_ok_iff (hreg : ctx.registry = Registry.defaults) {inner : Shape α}
    (hi : inner.foreign = false) {decodeValue : Site → Node → Outcome (Value α)} :
    ctx.decodeMap inner decodeValue site node = .ok value ↔
      ∃ entries place pairs, node = .map entries place ∧
        (entries.mapIdx fun i e => ctx.decodeEntry decodeValue (i :: site) e) = pairs.map .ok ∧
          .map (Entries.ofPairs pairs) = value := by
  rcases node.map_or_not with ⟨entries, place, rfl⟩ | hno
  · rw [decodeMap_builtin hreg hi, Outcome.gather_eq_ok_iff]
    simp
  · rw [decodeMap_no_map _ _ _ hno]
    constructor
    · intro h
      cases h
    · rintro ⟨entries, place, pairs, hn, -⟩
      exact absurd hn (hno entries place)

theorem buildRecord_eq_ok_iff {name : String} {fields : List (ShapeField α)} :
    buildRecord name fields none site node
        (List.zipWith nameOutcome fields (ctx.fieldOutcomes fields site node)) = .ok value ↔
      ∃ values, ctx.fieldOutcomes fields site node = values.map .ok ∧
        .record name (Arguments.ofBindings fields values).materialize = value := by
  constructor
  · intro h
    rcases values_or_failures (ctx.length_fieldOutcomes fields site node) with
      ⟨values, hv⟩ | ⟨children, hc⟩
    · rw [hv, buildRecord_of_values] at h
      exact ⟨values, hv, Except.ok.inj h⟩
    · rw [buildRecord_of_failures hc] at h
      cases h
  · rintro ⟨values, hv, rfl⟩
    rw [hv, buildRecord_of_values]
    rfl

/-! ### The same value of a shape that is more nullable -/

/-- What is decoded is decoded as the same value if null is acceptable at more places. -/
theorem decodeAt_of_moreNullable (hreg : ctx.registry = Registry.defaults)
    (hpre : ctx.preprocessors = []) {shape : Shape α} :
    ∀ {shape' : Shape α}, shape.MoreNullable shape' → shape.Everywhere Shape.Structural →
      ∀ (site : Site) (node : Node) (value : Value α), node.Everywhere (·.isDefined = true) →
        ctx.decodeAt shape site node = .ok value → ctx.decodeAt shape' site node = .ok value := by
  induction shape using Shape.induction with
  | leaf kind nullable =>
    intro shape' h hs site node value _ hok
    have hf := h.foreign_eq.trans hs.self.not_foreign
    cases h with
    | leaf hn =>
      rw [decodeAt_leaf hreg hs.self.not_foreign] at hok
      rw [decodeAt_leaf hreg hf]
      exact guardNull_transfer (fun h _ => hn h) decodeLeaf_ok_of_ok hok
  | collection kind element nullable ih =>
    intro shape' h hs site node value hdefined hok
    cases h with
    | collection hn h =>
      have hf := hs.element.self.not_foreign
      rw [decodeAt_collection hreg] at hok ⊢
      refine guardNull_transfer (fun h _ => hn h) (fun hd => ?_) hok
      rw [decodeCollection_eq_ok_iff hreg hf] at hd
      rw [decodeCollection_eq_ok_iff hreg (h.foreign_eq.trans hf)]
      obtain ⟨nodes, values, hnodes, hvalues, rfl⟩ := hd
      have helements := everywhere_of_elements? hpre (fun _ _ => rfl) hnodes hdefined
      refine ⟨nodes, values, hnodes, Outcome.mapIdx_ok_of_mem hvalues ?_, rfl⟩
      exact fun i n hm v _ => ih h hs.element (i :: site) n v (helements n hm)
  | map inner nullable ih =>
    intro shape' h hs site node value hdefined hok
    cases h with
    | map hn h =>
      have hf := hs.value.self.not_foreign
      rw [decodeAt_map hreg] at hok ⊢
      refine guardNull_transfer (fun h _ => hn h) (fun hd => ?_) hok
      rw [decodeMap_eq_ok_iff hreg hf] at hd
      rw [decodeMap_eq_ok_iff hreg (h.foreign_eq.trans hf)]
      obtain ⟨entries, place, pairs, rfl, hpairs, rfl⟩ := hd
      refine ⟨entries, place, pairs, rfl, Outcome.mapIdx_ok_of_mem hpairs ?_, rfl⟩
      intro i e hm pair _ he
      rw [decodeEntry_eq_ok_iff, preprocess_eq_self hpre] at he ⊢
      have hchild := hdefined.child (List.mem_map.mpr ⟨e, hm, rfl⟩)
      exact ⟨ih h hs.value (i :: site) e.2 pair.2 hchild he.1, he.2⟩
  | record name fields constructor? nullable ih =>
    intro shape' h hs site node value hdefined hok
    have hnone : constructor? = none := hs.self
    subst hnone
    cases h with
    | @record _ _ fields' _ _ _ hn h =>
      have hfields : List.Forall₂ (fun a b => Field.Beside Shape.MoreNullable a b ∧ a ∈ fields)
          fields fields' := forall₂_of_mem h fun a ha b _ hb => ⟨hb, ha⟩
      rw [decodeAt_record hreg] at hok ⊢
      refine guardRecord_transfer hdefined.self (fun h _ => hn h) (fun hd => ?_) hok
      rw [buildRecord_eq_ok_iff] at hd ⊢
      obtain ⟨values, hvalues, rfl⟩ := hd
      refine ⟨values, ?_, by rw [Arguments.ofBindings_of_beside h]⟩
      refine Outcome.mapIdx_ok_of_beside hfields hvalues ?_
      rintro i _ _ value? ⟨⟨fieldName, default?, hshape⟩, hm⟩ -
      refine bindField_transfer hpre (fun h _ => hshape.nullable h) fun v _ hchild => ?_
      exact ih _ hm hshape (hs.field hm) (i :: site) _ v (hdefined.child hchild)

/-! ### The way back -/

/-- Elements of a collection that holds no null hold none. -/
theorem nullFree_of_collect {kind : Collection} {values : List (Value α)}
    (hp : ∀ v ∈ values, v.Proper) (h : (kind.collect values).NullFree) :
    ∀ v ∈ values, v.NullFree := by
  cases kind with
  | list => exact fun v hv => h.child hv
  | set => exact Value.nullFree_of_setOf hp h

theorem proper_of_moreNullable (hreg : ctx.registry = Registry.defaults) {shape shape' : Shape α}
    (h : shape.MoreNullable shape') (hs : shape.Everywhere Shape.Structural)
    (hd : shape.Everywhere Shape.ProperDefaults)
    (hok : ctx.decodeAt shape' site node = .ok value) : value.Proper := by
  have hfree : shape'.Everywhere Shape.ConstructorFree :=
    h.everywhere (fun _ _ => Shape.constructorFree_of_moreNullable)
      (hs.imp fun _ => Shape.Structural.constructorFree)
  have hdefaults : shape'.Everywhere Shape.ProperDefaults :=
    h.everywhere (fun _ _ => Shape.properDefaults_of_moreNullable) hd
  exact proper_of_decodeAt hreg hfree hdefaults site node value hok

/-- What holds no null is decoded as the same value if null is acceptable at fewer places. -/
theorem decodeAt_of_nullFree (hreg : ctx.registry = Registry.defaults)
    (hpre : ctx.preprocessors = []) {shape : Shape α} :
    ∀ {shape' : Shape α}, shape.MoreNullable shape' → shape.Everywhere Shape.Structural →
      shape.Everywhere Shape.DistinctFields → shape.Everywhere Shape.ProperDefaults →
      ∀ (site : Site) (node : Node) (value : Value α),
        node.Everywhere (fun n => n.isDefined = true ∧ n.DistinctKeys) →
        ctx.decodeAt shape' site node = .ok value → value.NullFree →
          ctx.decodeAt shape site node = .ok value := by
  have hnull : ∀ {n n' : Bool} {v : Value α}, v.NullFree → n' = true → v = .null → n = true := by
    rintro n n' v hv - rfl
    exact absurd hv Value.not_nullFree_null
  induction shape using Shape.induction with
  | leaf kind nullable =>
    intro shape' h hs _ _ site node value _ hok hfree
    have hf := h.foreign_eq.trans hs.self.not_foreign
    cases h with
    | leaf hn =>
      rw [decodeAt_leaf hreg hf] at hok
      rw [decodeAt_leaf hreg hs.self.not_foreign]
      exact guardNull_transfer (hnull hfree) decodeLeaf_ok_of_ok hok
  | collection kind element nullable ih =>
    intro shape' h hs hfields hdefaults site node value hnode hok hfree
    cases h with
    | @collection _ _ element' _ _ hn h =>
      have hf := hs.element.self.not_foreign
      rw [decodeAt_collection hreg] at hok ⊢
      refine guardNull_transfer (hnull hfree) (fun hd => ?_) hok
      rw [decodeCollection_eq_ok_iff hreg (h.foreign_eq.trans hf)] at hd
      rw [decodeCollection_eq_ok_iff hreg hf]
      obtain ⟨nodes, values, hnodes, hvalues, rfl⟩ := hd
      have helements := everywhere_of_elements? hpre (fun _ _ => ⟨rfl, trivial⟩) hnodes hnode
      have hproper : ∀ v ∈ values, v.Proper := by
        intro v hv
        obtain ⟨i, n, -, he⟩ := Outcome.exists_part_of_mem hvalues hv
        exact proper_of_moreNullable hreg h hs.element hdefaults.element he
      -- An element that the set drops equals one that it keeps, and so holds no null either.
      have hparts := nullFree_of_collect hproper hfree
      refine ⟨nodes, values, hnodes, Outcome.mapIdx_ok_of_mem hvalues ?_, rfl⟩
      exact fun i n hm v hv he => ih h hs.element hfields.element hdefaults.element (i :: site) n v
        (helements n hm) he (hparts v hv)
  | map inner nullable ih =>
    intro shape' h hs hfields hdefaults site node value hnode hok hfree
    cases h with
    | map hn h =>
      have hf := hs.value.self.not_foreign
      rw [decodeAt_map hreg] at hok ⊢
      refine guardNull_transfer (hnull hfree) (fun hd => ?_) hok
      rw [decodeMap_eq_ok_iff hreg (h.foreign_eq.trans hf)] at hd
      rw [decodeMap_eq_ok_iff hreg hf]
      obtain ⟨entries, place, pairs, rfl, hpairs, rfl⟩ := hd
      have hkeys : Entries.keys pairs = Entries.keys entries := keys_of_decodeEntry hpairs
      rw [Entries.ofPairs_eq_self (hkeys ▸ hnode.self.2)] at hfree
      refine ⟨entries, place, pairs, rfl, Outcome.mapIdx_ok_of_mem hpairs ?_, rfl⟩
      intro i e hm pair hpair he
      rw [decodeEntry_eq_ok_iff, preprocess_eq_self hpre] at he ⊢
      have hchild := hnode.child (List.mem_map.mpr ⟨e, hm, rfl⟩)
      exact ⟨ih h hs.value hfields.value hdefaults.value (i :: site) e.2 pair.2 hchild he.1
        (hfree.child (Value.mem_children_of_entry hpair)), he.2⟩
  | record name fields constructor? nullable ih =>
    intro shape' h hs hnames hdefaults site node value hnode hok hfree
    have hnone : constructor? = none := hs.self
    subst hnone
    cases h with
    | @record _ _ fields' _ _ _ hn h =>
      have hfields : List.Forall₂ (fun b a => Field.Beside Shape.MoreNullable a b ∧ a ∈ fields)
          fields' fields := forall₂_symm_of_mem h fun a ha b _ hb => ⟨hb, ha⟩
      rw [decodeAt_record hreg] at hok ⊢
      refine guardRecord_transfer hnode.self.1 (hnull hfree) (fun hd => ?_) hok
      rw [buildRecord_eq_ok_iff] at hd ⊢
      obtain ⟨values, hvalues, rfl⟩ := hd
      rw [Arguments.ofBindings_of_beside h] at hfree ⊢
      have hlen : fields.length = values.length := by
        rw [h.length_eq, ctx.length_fieldOutcomes fields' site node, hvalues, List.length_map]
      -- Names are different, so no value of a field is overwritten by that of another.
      have hparts : ∀ v, some v ∈ values → v.NullFree := by
        intro v hv
        obtain ⟨fieldName, hm⟩ := Arguments.exists_entry_of_bound hnames.self hlen hv
        exact hfree.child (Value.mem_children_of_entry hm)
      refine ⟨values, ?_, rfl⟩
      refine Outcome.mapIdx_ok_of_beside hfields hvalues ?_
      rintro i _ _ value? ⟨⟨fieldName, default?, hshape⟩, hm⟩ hv
      refine bindField_transfer hpre (fun hn hv' => ?_) fun v hv' hchild he => ?_
      · exact hnull (hparts .null (hv' ▸ hv)) hn rfl
      · exact ih _ hm hshape (hs.field hm) (hnames.field hm) (hdefaults.field hm) (i :: site) _ v
          (hnode.child hchild) he (hparts v (hv' ▸ hv))

/-- **More nullable shapes accept more.** Let null be acceptable at more places of a shape that
asks for no decoder and no constructor of the application and whose records have fields of
different names; let there be no preprocessors, and let the nodes be defined and hold each key
once. What is decoded as the shape is decoded as the more nullable one with the same value. If
no set inside a default holds an element that equals a later one, what is decoded as the more
nullable shape with a value that holds no null is decoded as the shape, with the same value. -/
theorem decodeAt_moreNullable (hreg : ctx.registry = Registry.defaults)
    (hpre : ctx.preprocessors = []) {shape shape' : Shape α} (h : shape.MoreNullable shape')
    (hs : shape.Everywhere Shape.Structural) (hnames : shape.Everywhere Shape.DistinctFields)
    (hdefined : node.Everywhere (·.isDefined = true)) (hkeys : node.Everywhere Node.DistinctKeys)
    (site : Site) :
    (∀ value, ctx.decodeAt shape site node = .ok value →
        ctx.decodeAt shape' site node = .ok value) ∧
      (shape.Everywhere Shape.ProperDefaults → ∀ value,
        ctx.decodeAt shape' site node = .ok value → value.NullFree →
          ctx.decodeAt shape site node = .ok value) := by
  have hnode : node.Everywhere fun n => n.isDefined = true ∧ n.DistinctKeys :=
    fun n hn => ⟨hdefined n hn, hkeys n hn⟩
  constructor
  · intro value
    exact decodeAt_of_moreNullable hreg hpre h hs site node value hdefined
  · intro hdefaults value
    exact decodeAt_of_nullFree hreg hpre h hs hnames hdefaults site node value hnode

/-- Retries, each with delays that have the given default and may be null or not. -/
def retriesShape (default : List Int64) (nullable : Bool) : Shape Unit :=
  .collection .set
    (.record "Retry"
      [⟨"delays", .collection .set (.leaf .long nullable) false, some (.set (default.map .long))⟩]
      none false)
    false

/-- A retry with the default and another one with two delays, the last of which is given. -/
def retriesNode (last : Node) : Node :=
  .array
    [.map [] ⟨.unknown, "<root>[0]"⟩,
      .map
        [("delays", .array [.long 1 ⟨.unknown, "<root>[1].delays[0]"⟩, last]
          ⟨.unknown, "<root>[1].delays"⟩)]
        ⟨.unknown, "<root>[1]"⟩]
    ⟨.unknown, "<root>"⟩

/-- A retry with these delays. -/
def retry (delays : Value Unit) : Value Unit := .record "Retry" [("delays", delays)]

theorem retriesShape_moreNullable (default : List Int64) :
    (retriesShape default false).MoreNullable (retriesShape default true) :=
  .collection id (.record id (.cons (.intro _ _ (.collection id (.leaf fun _ => rfl))) .nil))

theorem retriesShape_structural (default : List Int64) :
    (retriesShape default false).Everywhere Shape.Structural := by
  simp [retriesShape, Shape.Everywhere, Shape.EveryField, Shape.Structural]

theorem retriesShape_distinctFields (default : List Int64) :
    (retriesShape default false).Everywhere Shape.DistinctFields := by
  simp [retriesShape, Shape.Everywhere, Shape.EveryField, Shape.DistinctFields]

theorem retriesShape_properDefaults :
    (retriesShape [1] false).Everywhere Shape.ProperDefaults := by
  have hlong : (Value.long 1 : Value Unit).Proper := Value.proper_of_no_children rfl trivial
  have hset : (Value.set [.long 1] : Value Unit).Proper := by
    refine Value.everywhere_iff.mpr ⟨List.pairwise_singleton _ _, fun c hc => ?_⟩
    rw [List.mem_singleton.mp hc]
    exact hlong
  simpa [retriesShape, Shape.Everywhere, Shape.EveryField, Shape.ProperDefaults] using hset

/-- What holds of all parts of the node holds everywhere in it. -/
theorem retriesNode_everywhere {P : Node → Prop} {last : Node} (h0 : last.children = [])
    (hlast : P last) (hlong : ∀ k place, P (.long k place))
    (harray : ∀ elements place, P (.array elements place))
    (hmap : ∀ entries place, (Entries.keys entries).Nodup → P (.map entries place)) :
    (retriesNode last).Everywhere P := by
  have h : last.Everywhere P := Node.everywhere_of_no_children h0 hlast
  have h1 : ∀ k place, (Node.long k place).Everywhere P :=
    fun k place => Node.everywhere_of_no_children rfl (hlong k place)
  have hempty : ∀ place, P (.map [] place) := fun place => hmap [] place List.nodup_nil
  have hdelays : ∀ delays place, P (.map [("delays", delays)] place) :=
    fun delays place => hmap _ place (List.pairwise_singleton _ _)
  simp [retriesNode, Node.everywhere_array_iff, Node.everywhere_map_iff, h, h1, harray, hempty,
    hdelays]

theorem retriesNode_defined {last : Node} (h0 : last.children = []) (h : last.isDefined = true) :
    (retriesNode last).Everywhere (·.isDefined = true) :=
  retriesNode_everywhere h0 h (fun _ _ => rfl) (fun _ _ => rfl) fun _ _ _ => rfl

theorem retriesNode_distinctKeys {last : Node} (h0 : last.children = []) (h : last.DistinctKeys) :
    (retriesNode last).Everywhere Node.DistinctKeys :=
  retriesNode_everywhere h0 h (fun _ _ => trivial) (fun _ _ => trivial) fun _ _ hkeys => hkeys

theorem nullFree_long (k : Int64) : (Value.long k : Value Unit).NullFree :=
  Value.nullFree_of_no_children rfl rfl

theorem nullFree_retry {delays : List (Value Unit)} (h : ∀ v ∈ delays, v.NullFree) :
    (retry (.set delays)).NullFree := by
  have hset : (Value.set delays).NullFree := Value.everywhere_iff.mpr ⟨rfl, h⟩
  refine Value.everywhere_iff.mpr ⟨rfl, fun c hc => ?_⟩
  rw [List.mem_singleton.mp hc]
  exact hset

/-- Where the delays may be null, a retry with null for a delay disappears: a default that is a
set with one element twice equals the set of this element and null, and is kept in its place.
Where they may not, nothing is decoded. -/
theorem decodeAt_doubledDefault :
    (ofRegistry (α := Unit) .defaults).registry = .defaults ∧
      (ofRegistry (α := Unit) .defaults).preprocessors = [] ∧
      (retriesShape [1, 1] false).MoreNullable (retriesShape [1, 1] true) ∧
      (retriesShape [1, 1] false).Everywhere Shape.Structural ∧
      (retriesShape [1, 1] false).Everywhere Shape.DistinctFields ∧
      (retriesNode (.null ⟨.unknown, "<root>[1].delays[1]"⟩)).Everywhere (·.isDefined = true) ∧
      (retriesNode (.null ⟨.unknown, "<root>[1].delays[1]"⟩)).Everywhere Node.DistinctKeys ∧
      (ofRegistry .defaults).decodeAt (retriesShape [1, 1] true) []
        (retriesNode (.null ⟨.unknown, "<root>[1].delays[1]"⟩)) =
          .ok (.set [retry (.set [.long 1, .long 1])]) ∧
      (Value.set [retry (.set [.long 1, .long 1])]).NullFree ∧
      ∀ v, (ofRegistry .defaults).decodeAt (retriesShape [1, 1] false) []
        (retriesNode (.null ⟨.unknown, "<root>[1].delays[1]"⟩)) ≠ .ok v := by
  refine ⟨rfl, rfl, retriesShape_moreNullable _, retriesShape_structural _,
    retriesShape_distinctFields _, retriesNode_defined rfl rfl,
    retriesNode_distinctKeys rfl trivial, ?_, ?_, ?_⟩
  · have hok : (ofRegistry .defaults).decodeAt (retriesShape [1, 1] true) []
        (retriesNode (.null ⟨.unknown, "<root>[1].delays[1]"⟩)) =
      .ok (.setOf [retry (.set [.long 1, .long 1]), retry (.setOf [.long 1, .null])]) := rfl
    have hequal : (retry (.set [.long 1, .long 1])).equals (retry (.setOf [.long 1, .null])) =
      true := by decide +kernel
    rw [hok, Value.setOf, Value.distinctAfter, Value.distinctAfter]
    simp [hequal, Value.distinctAfter]
  · refine Value.everywhere_iff.mpr ⟨rfl, fun c hc => ?_⟩
    rw [List.mem_singleton.mp hc]
    exact nullFree_retry (by simp [nullFree_long])
  · intro v h
    cases h

/-- The default is a set that holds its only element once, and no delay is null. -/
theorem decodeAt_retries :
    (ofRegistry (α := Unit) .defaults).registry = .defaults ∧
      (ofRegistry (α := Unit) .defaults).preprocessors = [] ∧
      (retriesShape [1] false).MoreNullable (retriesShape [1] true) ∧
      (retriesShape [1] false).Everywhere Shape.Structural ∧
      (retriesShape [1] false).Everywhere Shape.DistinctFields ∧
      (retriesShape [1] false).Everywhere Shape.ProperDefaults ∧
      (retriesNode (.long 2 ⟨.unknown, "<root>[1].delays[1]"⟩)).Everywhere (·.isDefined = true) ∧
      (retriesNode (.long 2 ⟨.unknown, "<root>[1].delays[1]"⟩)).Everywhere Node.DistinctKeys ∧
      (ofRegistry .defaults).decodeAt (retriesShape [1] true) []
        (retriesNode (.long 2 ⟨.unknown, "<root>[1].delays[1]"⟩)) =
          .ok (.set [retry (.set [.long 1]), retry (.set [.long 1, .long 2])]) ∧
      (Value.set [retry (.set [.long 1]), retry (.set [.long 1, .long 2])]).NullFree ∧
      (ofRegistry .defaults).decodeAt (retriesShape [1] false) []
        (retriesNode (.long 2 ⟨.unknown, "<root>[1].delays[1]"⟩)) =
          .ok (.set [retry (.set [.long 1]), retry (.set [.long 1, .long 2])]) := by
  have hreg : (ofRegistry (α := Unit) .defaults).registry = .defaults := rfl
  have hpre : (ofRegistry (α := Unit) .defaults).preprocessors = [] := rfl
  have hdefined : (retriesNode (.long 2 ⟨.unknown, "<root>[1].delays[1]"⟩)).Everywhere
      (·.isDefined = true) := retriesNode_defined rfl rfl
  have hkeys : (retriesNode (.long 2 ⟨.unknown, "<root>[1].delays[1]"⟩)).Everywhere
      Node.DistinctKeys := retriesNode_distinctKeys rfl trivial
  have hfree : (Value.set [retry (.set [.long 1]), retry (.set [.long 1, .long 2])]).NullFree := by
    refine Value.everywhere_iff.mpr ⟨rfl, fun c hc => ?_⟩
    rcases List.mem_pair.mp hc with rfl | rfl <;> exact nullFree_retry (by simp [nullFree_long])
  have hok : (ofRegistry .defaults).decodeAt (retriesShape [1] true) []
      (retriesNode (.long 2 ⟨.unknown, "<root>[1].delays[1]"⟩)) =
        .ok (.set [retry (.set [.long 1]), retry (.set [.long 1, .long 2])]) := by
    have hsets : (ofRegistry .defaults).decodeAt (retriesShape [1] true) []
        (retriesNode (.long 2 ⟨.unknown, "<root>[1].delays[1]"⟩)) =
      .ok (.setOf [retry (.set [.long 1]), retry (.setOf [.long 1, .long 2])]) := rfl
    have hdelays : [Value.long 1, .long 2].Pairwise fun x y : Value Unit => x.equals y = false :=
      List.pairwise_pair.mpr (by decide +kernel)
    have hretries : [retry (.set [.long 1]), retry (.set [.long 1, .long 2])].Pairwise
        fun x y => x.equals y = false := List.pairwise_pair.mpr (by decide +kernel)
    rw [hsets, Value.setOf_eq_self hdelays, Value.setOf_eq_self hretries]
  obtain ⟨-, hback⟩ := decodeAt_moreNullable hreg hpre (retriesShape_moreNullable [1])
    (retriesShape_structural [1]) (retriesShape_distinctFields [1]) hdefined hkeys []
  exact ⟨hreg, hpre, retriesShape_moreNullable [1], retriesShape_structural [1],
    retriesShape_distinctFields [1], retriesShape_properDefaults, hdefined, hkeys, hok, hfree,
    hback retriesShape_properDefaults _ hok hfree⟩

end Context
end TypedConfig
