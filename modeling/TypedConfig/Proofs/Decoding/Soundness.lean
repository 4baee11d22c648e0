/-
# Decoding gives values of the shape

With the built-in decoders, decoding a node as a shape without application types
and constructors gives a value of that shape or fails, whatever the node, the
spellings and the preprocessors are (`hasShape_of_decodeAt`). The induction is on
the shape; at each level the decoder of that level only has to be right about the
values that the parts gave. A map that is decoded keeps the keys of its node in
their order.

Key theorems: `Context.hasShape_of_decodeLeaf`, `Context.haveShapes_materialize`,
`Context.hasShape_of_decodeAt`, `Context.decodeAt_sound`.
-/
import TypedConfig.Proofs.Decoding.Binding
import TypedConfig.Proofs.Decoding.Leaf
import TypedConfig.Proofs.Value.Distinct
import TypedConfig.Proofs.Value.Typing

namespace TypedConfig
namespace Context

variable {α : Type} {ctx : Context α} {shape : Shape α} {site : Site} {node : Node}
  {value : Value α}

/-! ### One level of a shape -/

theorem hasShape_of_guardNull {decoded : Outcome (Value α)}
    (h : guardNull shape.nullable node decoded = .ok value)
    (hd : decoded = .ok value → HasShape shape value) : HasShape shape value := by
  rcases guardNull_eq_ok h with ⟨hn, rfl⟩ | ⟨-, h⟩
  · exact .null hn
  · exact hd h

/-- A record that is not looked for in the node is null at most. -/
theorem null_of_guardRecord {name : String} {fields : List (ShapeField α)}
    {constructor? : Option (Constructor α)} {nullable : Bool} {decoded : Outcome (Value α)}
    (ho : node.offersFields nullable = false)
    (h : guardRecord (.record name fields constructor? nullable) node decoded = .ok value) :
    nullable = true ∧ value = .null := by
  cases nullable with
  | true =>
    cases node with
    | undefined =>
      cases h
      exact ⟨rfl, rfl⟩
    | null place =>
      cases h
      exact ⟨rfl, rfl⟩
    | map entries place => cases ho
    | _ => cases h
  | false =>
    cases node with
    | undefined => cases ho
    | map entries place => cases ho
    | _ => cases h

/-- A leaf is read as a value of the leaf. -/
theorem hasShape_of_decodeLeaf {kind : Leaf} {nullable : Bool} {text : String}
    (h : decodeLeaf kind text node = .ok value) : HasShape (.leaf kind nullable) value := by
  cases kind with
  | string =>
    rw [decodeLeaf_string] at h
    split at h
    · cases h
      exact .string
    · cases h
  | long =>
    rw [decodeLeaf_long, Outcome.map_eq_ok_iff] at h
    obtain ⟨k, -, rfl⟩ := h
    exact .long
  | int =>
    rw [decodeLeaf_int_eq_ok_iff] at h
    obtain ⟨k, -, hk, rfl⟩ := h
    have hfit : Int32.minValue.toInt ≤ k.toInt ∧ k.toInt ≤ Int32.maxValue.toInt := by
      simpa only [Number.fitsInt32, Bool.and_eq_true, decide_eq_true_eq] using hk
    exact .int hfit.1 hfit.2
  | double =>
    rw [decodeLeaf_double, Outcome.map_eq_ok_iff] at h
    obtain ⟨x, -, rfl⟩ := h
    exact .double
  | boolean =>
    rw [decodeLeaf_boolean, Outcome.map_eq_ok_iff] at h
    obtain ⟨b, -, rfl⟩ := h
    exact .boolean
  | path =>
    rw [decodeLeaf_path] at h
    split at h
    · cases h
      exact .path
    · cases h
  | enum name constants =>
    rw [decodeLeaf_enum] at h
    split at h
    · split at h
      · rename_i c hc
        cases h
        exact .enum (List.mem_of_find?_eq_some hc)
      · cases h
    · cases h
  | named name => cases h

theorem hasShape_collect {kind : Collection} {element : Shape α} {nullable : Bool}
    {values : List (Value α)} (h : ∀ v ∈ values, HasShape element v) :
    HasShape (.collection kind element nullable) (kind.collect values) := by
  cases kind with
  | list => exact .list h
  | set =>
    refine .set (fun x hx => ?_) (Value.distinctAfter_pairwise List.Pairwise.nil)
    exact h x ((Value.mem_of_mem_distinctAfter hx).resolve_left List.not_mem_nil)

theorem decodeEntry_eq_ok_iff {decodeValue : Site → Node → Outcome (Value α)}
    {entry : String × Node} {pair : String × Value α} :
    ctx.decodeEntry decodeValue site entry = .ok pair ↔
      decodeValue site (ctx.preprocess entry.2) = .ok pair.2 ∧ pair.1 = entry.1 := by
  rw [decodeEntry, Outcome.map_wrap_eq_ok_iff]
  constructor
  · rintro ⟨v, hv, rfl⟩
    exact ⟨hv, rfl⟩
  · rintro ⟨hv, hk⟩
    exact ⟨pair.2, hv, by rw [← hk]⟩

/-- The keys of a map are taken as they are. -/
theorem keys_of_decodeEntry {decodeValue : Site → Node → Outcome (Value α)}
    {entries : List (String × Node)} {pairs : List (String × Value α)}
    (h : (entries.mapIdx fun i e => ctx.decodeEntry decodeValue (i :: site) e) = pairs.map .ok) :
    Entries.keys pairs = Entries.keys entries :=
  Outcome.map_results_eq (f := Prod.fst) (g := Prod.fst)
    (fun _ _ _ he => (decodeEntry_eq_ok_iff.mp he).2) h

/-- What a collection gives is made of what its elements give. -/
theorem exists_parts_of_collection {kind : Collection} {element : Shape α}
    {decodeElement : Site → Node → Outcome (Value α)}
    (h : ctx.decodeCollection kind element decodeElement site node = .ok value) :
    ∃ values, value = kind.collect values ∧
      ∀ v ∈ values, ∃ site node, decodeElement site node = .ok v := by
  cases hr : ctx.registry.resolve element with
  | error failures =>
    rw [decodeCollection_of_error hr] at h
    cases h
  | ok decoder =>
    rw [decodeCollection_of_ok hr] at h
    cases hns : ctx.elements? node with
    | none =>
      rw [hns] at h
      cases h
    | some nodes =>
      rw [hns] at h
      obtain ⟨values, hv, rfl⟩ := Outcome.gather_eq_ok_iff.mp h
      refine ⟨values, rfl, fun v hm => ?_⟩
      obtain ⟨i, n, -, he⟩ := Outcome.exists_part_of_mem hv hm
      exact ⟨i :: site, n, he⟩

/-- What a map gives holds each key once, with what some node of the map gives. -/
theorem exists_parts_of_map {inner : Shape α} {decodeValue : Site → Node → Outcome (Value α)}
    (h : ctx.decodeMap inner decodeValue site node = .ok value) :
    ∃ es, value = .map es ∧ (Entries.keys es).Nodup ∧
      ∀ e ∈ es, ∃ site node, decodeValue site node = .ok e.2 := by
  rcases node.map_or_not with ⟨entries, place, rfl⟩ | hno
  · cases hr : ctx.registry.resolve inner with
    | error failures =>
      rw [decodeMap_of_error hr] at h
      cases h
    | ok decoder =>
      rw [decodeMap_of_ok hr] at h
      obtain ⟨pairs, hp, rfl⟩ := Outcome.gather_eq_ok_iff.mp h
      refine ⟨Entries.ofPairs pairs, rfl, Entries.keys_ofPairs_nodup pairs, fun e he => ?_⟩
      obtain ⟨i, entry, -, hentry⟩ :=
        Outcome.exists_part_of_mem hp (Entries.mem_of_mem_ofPairs he)
      exact ⟨i :: site, ctx.preprocess entry.2, (decodeEntry_eq_ok_iff.mp hentry).1⟩
  · rw [decodeMap_no_map _ _ _ hno] at h
    cases h

/-- A field has a value of its shape if it is bound to one, or else has such a default. -/
theorem haveShapes_named : ∀ {fields : List (ShapeField α)} {values : List (Option (Value α))},
    fields.length = values.length →
    (∀ b ∈ fields.zip values, ∃ v, b.2.or b.1.default? = some v ∧ HasShape b.1.shape v) →
    HaveShapes fields (Arguments.named (fun b => b.2.or b.1.default?) (fields.zip values))
  | [], [], _, _ => .nil
  | ⟨name, shape, default?⟩ :: fields, value? :: values, hlen, h => by
    rw [List.zip_cons_cons, Arguments.named_cons]
    obtain ⟨v, hv, hs⟩ := h (⟨name, shape, default?⟩, value?) List.mem_cons_self
    rw [hv]
    refine .cons hs (haveShapes_named (Nat.succ.inj hlen) fun b hb => ?_)
    exact h b (List.mem_cons_of_mem _ hb)

/-- The fields of a record that gives values of their shapes, with the defaults of those
left out, make a record of the shape. -/
theorem haveShapes_materialize {fields : List (ShapeField α)} {values : List (Option (Value α))}
    (hnames : (fields.map (·.name)).Nodup)
    (hdefaults : ∀ field ∈ fields, ∀ v, field.default? = some v → HasShape field.shape v)
    (hparts : ∀ field ∈ fields, ∀ site node v,
      ctx.decodeAt field.shape site node = .ok v → HasShape field.shape v)
    (h : ctx.fieldOutcomes fields site node = values.map .ok) :
    HaveShapes fields (Arguments.ofBindings fields values).materialize := by
  have hlen : fields.length = values.length := by
    rw [ctx.length_fieldOutcomes fields site node, h, List.length_map]
  rw [Arguments.materialize_ofBindings hnames hlen]
  refine haveShapes_named hlen fun b hb => ?_
  have hfield : b.1 ∈ fields := (List.of_mem_zip hb).1
  obtain ⟨i, hi⟩ := Outcome.exists_outcome_of_mem_zip h hb
  obtain ⟨hbound, hleft⟩ := bindField_spec .null (hparts b.1 hfield (i :: site)) hi
  cases hv : b.2 with
  | some v => exact ⟨v, rfl, hbound v hv⟩
  | none =>
    obtain ⟨v, hd⟩ := Option.isSome_iff_exists.mp (hleft hv)
    exact ⟨v, hd, hdefaults b.1 hfield v hd⟩

/-- A record that is decoded is null where it may be, or has all its fields. -/
theorem hasShape_of_record {name : String} {fields : List (ShapeField α)} {nullable : Bool}
    (hparts : ∀ values, ctx.fieldOutcomes fields site node = values.map .ok →
      HaveShapes fields (Arguments.ofBindings fields values).materialize)
    (hreg : ctx.registry = Registry.defaults)
    (h : ctx.decodeAt (.record name fields none nullable) site node = .ok value) :
    HasShape (.record name fields none nullable) value := by
  rw [decodeAt_record hreg] at h
  cases ho : node.offersFields nullable with
  | true =>
    rw [guardRecord_offers ho] at h
    rcases values_or_failures (ctx.length_fieldOutcomes fields site node) with
      ⟨values, hv⟩ | ⟨children, hc⟩
    · rw [hv, buildRecord_of_values] at h
      cases h
      exact .record (hparts values hv)
    · rw [buildRecord_of_failures hc] at h
      cases h
  | false =>
    obtain ⟨hn, rfl⟩ := null_of_guardRecord ho h
    exact .null hn

/-! ### All levels -/

/-- What is decoded as a shape is of that shape. -/
theorem hasShape_of_decodeAt (hreg : ctx.registry = Registry.defaults) {shape : Shape α} :
    shape.Everywhere Shape.Structural → shape.Everywhere Shape.DistinctFields →
    shape.Everywhere Shape.DefaultsFit → ∀ (site : Site) (node : Node) (value : Value α),
      ctx.decodeAt shape site node = .ok value → HasShape shape value := by
  induction shape using Shape.induction with
  | leaf kind nullable =>
    intro hs hn hd site node value h
    rw [decodeAt_leaf hreg hs.self.not_foreign] at h
    exact hasShape_of_guardNull h hasShape_of_decodeLeaf
  | collection kind element nullable ih =>
    intro hs hn hd site node value h
    rw [decodeAt_collection hreg] at h
    refine hasShape_of_guardNull h fun h => ?_
    obtain ⟨values, rfl, hparts⟩ := exists_parts_of_collection h
    refine hasShape_collect fun v hm => ?_
    obtain ⟨site', node', he⟩ := hparts v hm
    exact ih hs.element hn.element hd.element site' node' v he
  | map inner nullable ih =>
    intro hs hn hd site node value h
    rw [decodeAt_map hreg] at h
    refine hasShape_of_guardNull h fun h => ?_
    obtain ⟨es, rfl, hkeys, hparts⟩ := exists_parts_of_map h
    refine .map hkeys fun e he => ?_
    obtain ⟨site', node', hentry⟩ := hparts e he
    exact ih hs.value hn.value hd.value site' node' e.2 hentry
  | record name fields constructor? nullable ih =>
    intro hs hn hd site node value h
    have hnone : constructor? = none := hs.self
    subst hnone
    refine hasShape_of_record (fun values hf => ?_) hreg h
    refine haveShapes_materialize hn.self hd.self (fun field hm => ?_) hf
    exact ih field hm (hs.field hm) (hn.field hm) (hd.field hm)

/-! ### The keys of maps -/

/-- What is decoded as a map is null, or has the keys of its node in their order. -/
theorem keys_of_decodeAt_map (hreg : ctx.registry = Registry.defaults) {inner : Shape α}
    {nullable : Bool} (h : ctx.decodeAt (.map inner nullable) site node = .ok value) :
    value = .null ∨ ∃ values entries place, value = .map values ∧ node = .map entries place ∧
      ((Entries.keys entries).Nodup → Entries.keys values = Entries.keys entries) := by
  rw [decodeAt_map hreg] at h
  rcases guardNull_eq_ok h with ⟨-, rfl⟩ | ⟨-, h⟩
  · exact Or.inl rfl
  rcases node.map_or_not with ⟨entries, place, rfl⟩ | hno
  · cases hf : inner.foreign with
    | true =>
      rw [decodeMap_foreign hreg hf] at h
      cases h
    | false =>
      rw [decodeMap_builtin hreg hf] at h
      obtain ⟨pairs, hp, rfl⟩ := Outcome.gather_eq_ok_iff.mp h
      have hkeys : Entries.keys pairs = Entries.keys entries := keys_of_decodeEntry hp
      refine Or.inr ⟨_, entries, place, rfl, rfl, fun hnodup => ?_⟩
      rw [Entries.ofPairs_eq_self (hkeys ▸ hnodup), hkeys]
  · rw [decodeMap_no_map _ _ _ hno] at h
    cases h

/-- **What is decoded is of the shape.** The shape asks for no decoder and no constructor of
the application, the fields of each record differ in their names, and the defaults are of
the shapes of their fields. What comes out as a map has the keys of the node in order. -/
theorem decodeAt_sound (hreg : ctx.registry = Registry.defaults)
    (hs : shape.Everywhere Shape.Structural) (hn : shape.Everywhere Shape.DistinctFields)
    (hd : shape.Everywhere Shape.DefaultsFit) (h : ctx.decodeAt shape site node = .ok value) :
    HasShape shape value ∧ ∀ values, value = .map values → ∃ entries place,
      node = .map entries place ∧
        ((Entries.keys entries).Nodup → Entries.keys values = Entries.keys entries) := by
  have hv := hasShape_of_decodeAt hreg hs hn hd site node value h
  refine ⟨hv, ?_⟩
  rintro values rfl
  cases hv with
  | @map inner nullable _ _ _ =>
    rcases keys_of_decodeAt_map hreg h with hnull | ⟨_, entries, place, he, hnode, hkeys⟩
    · cases hnull
    · cases he
      exact ⟨entries, place, hnode, hkeys⟩

/-- A server has ports by purpose, tags, a mode that is fast by default, and no owner
unless one is given. -/
def serverShape : Shape Unit :=
  .record "Server"
    [⟨"ports", .map (.leaf .int false) false, none⟩,
      ⟨"tags", .collection .set (.leaf .string false) false, none⟩,
      ⟨"mode", .leaf (.enum "Mode" ["fast", "safe"]) false, some (.enum "fast")⟩,
      ⟨"owner", .leaf .string true, none⟩] none false

/-- Two ports and the same tag twice. -/
def serverNode : Node :=
  .map
    [("tags", .string "a, b, a" ⟨.unknown, "<root>.tags"⟩),
      ("ports", .map
        [("http", .long 80 ⟨.unknown, "<root>.ports.http"⟩),
          ("admin", .long 81 ⟨.unknown, "<root>.ports.admin"⟩)]
        ⟨.unknown, "<root>.ports"⟩)]
    ⟨.unknown, "<root>"⟩

/-- The server with both ports and each tag once. -/
def serverValue : Value Unit :=
  .record "Server"
    [("ports", .map [("http", .long 80), ("admin", .long 81)]),
      ("tags", .setOf [.string "a", .string "b", .string "a"]), ("mode", .enum "fast"),
      ("owner", .null)]

theorem serverShape_structural : serverShape.Everywhere Shape.Structural := by
  simp [serverShape, Shape.Everywhere, Shape.EveryField, Shape.Structural]

theorem serverShape_distinctFields : serverShape.Everywhere Shape.DistinctFields := by
  simp [serverShape, Shape.Everywhere, Shape.EveryField, Shape.DistinctFields]

theorem serverShape_defaultsFit : serverShape.Everywhere Shape.DefaultsFit := by
  have hmode : HasShape (.leaf (.enum "Mode" ["fast", "safe"]) false) (.enum (α := Unit) "fast") :=
    .enum List.mem_cons_self
  simpa [serverShape, Shape.Everywhere, Shape.EveryField, Shape.DefaultsFit] using hmode

theorem hasShape_serverValue :
    (ofRegistry (α := Unit) .defaults).decodeAt serverShape [] serverNode = .ok serverValue ∧
      HasShape serverShape serverValue := by
  have h : (ofRegistry (α := Unit) .defaults).decodeAt serverShape [] serverNode =
    .ok serverValue := rfl
  exact ⟨h, (decodeAt_sound rfl serverShape_structural serverShape_distinctFields
    serverShape_defaultsFit h).1⟩

end Context
end TypedConfig
