/-
# Decoding undoes the encoding

Every value of a shape is reached: what it is written out as is decoded as the
value again, the same element by element and entry by entry
(`decodeAt_encode`). Nothing that is given is trimmed, dropped or replaced by a
default. The built-in decoders are at work, fields are first looked for as they
are declared, and nothing is preprocessed.

The induction is on the shape. At each level the parts of the node are those of
the value, written out, so that each is decoded as itself.

Key theorems: `Context.decodeCollection_encode`, `Context.decodeMap_encode`,
`Context.fieldOutcomes_encode`, `Context.decodeAt_encode`, `Context.decode_encode`.
-/
import TypedConfig.Proofs.Decoding.Builtin
import TypedConfig.Proofs.Decoding.Leaf
import TypedConfig.Proofs.Value.Distinct
import TypedConfig.Proofs.Value.Encoding
import TypedConfig.Proofs.Value.Typing

namespace TypedConfig

variable {α : Type}

/-- What has a shape is written out as null or as something else that is there. -/
theorem HasShape.encode_isPresent {shape : Shape α} {value : Value α} (h : HasShape shape value)
    (place : Site → Place) (site : Site) :
    (value = .null ∧ shape.nullable = true) ∨ (value.encode place site).isPresent = true := by
  cases h with
  | null h => exact Or.inl ⟨rfl, h⟩
  | _ => exact Or.inr rfl

/-- A declared constant is found by its text. -/
theorem Shape.constant?_of_mem {constants : List String} {c : String} (h : c ∈ constants) :
    Shape.constant? constants c = some c := by
  obtain ⟨found, hf⟩ : ∃ found, constants.find? (· == c) = some found := by
    rw [← Option.isSome_iff_exists, List.find?_isSome]
    exact ⟨c, h, beq_self_eq_true c⟩
  have hc : (found == c) = true := List.find?_some (p := (· == c)) hf
  rw [constant?, hf, eq_of_beq hc]

/-- The values of a record make up the record again, whatever the defaults are. -/
theorem HaveShapes.named_eq : ∀ {fields : List (ShapeField α)} {es : List (String × Value α)},
    HaveShapes fields es →
      Arguments.named (fun b => b.2.or b.1.default?) (fields.zip (es.map (some ·.2))) = es
  | _, _, .nil => rfl
  | _, _, .cons h hs => by
    rw [List.map_cons, List.zip_cons_cons, Arguments.named_cons, hs.named_eq]
    rfl

namespace Context

variable {ctx : Context α} {place : Site → Place}

/-- A field is found under its declared name if that is looked for first. -/
theorem resolveField_declared (hspell : ctx.spellings.head? = some FieldName.asDeclared)
    {node : Node} {name : String} (h : (node.atKey name).isDefined = true) :
    ctx.resolveField node name = node.atKey name := by
  obtain ⟨others, hs⟩ := List.head?_eq_some_iff.mp hspell
  have hfirst : (fun n : Node => n.isDefined) (node.atKey (FieldName.asDeclared name)) = true := h
  rw [resolveField, hs, List.map_cons, List.find?_cons_of_pos hfirst]
  rfl

theorem mapIdx_eq_map_ok {β γ : Type} {parts : List β} {outcome : Nat → β → Outcome γ}
    {result : β → γ} (h : ∀ i, ∀ part ∈ parts, outcome i part = .ok (result part)) :
    parts.mapIdx outcome = (parts.map result).map .ok := by
  rw [List.mapIdx_eq_iff]
  intro i
  rw [List.map_map, List.getElem?_map]
  cases hp : parts[i]? with
  | none => rfl
  | some part =>
    rw [Option.map_some, Option.map_some, h i part (List.mem_of_getElem? hp)]
    rfl

/-- A collection is filled again with the values of its elements, if each is decoded as
itself. -/
theorem decodeCollection_encode (hreg : ctx.registry = Registry.defaults)
    (hpre : ctx.preprocessors = []) (kind : Collection) {element : Shape α}
    (he : element.foreign = false) {xs : List (Value α)}
    {decodeElement : Site → Node → Outcome (Value α)}
    (h : ∀ x ∈ xs, ∀ site origin, decodeElement site (x.encode place origin) = .ok x)
    (site origin : Site) (p : Place) :
    ctx.decodeCollection kind element decodeElement site
      (.array (Value.encodeElements place origin 0 xs) p) = .ok (kind.collect xs) := by
  have hnodes : ctx.elements? (.array (Value.encodeElements place origin 0 xs) p) =
      some (Value.encodeElements place origin 0 xs) := by
    rw [elements?, funext (preprocess_eq_self hpre), List.map_id']
  rw [decodeCollection_builtin hreg kind he, hnodes]
  refine Outcome.gather_eq_ok_iff.mpr ⟨xs, ?_, rfl⟩
  rw [Value.encodeElements_eq, List.mapIdx_mapIdx]
  exact (mapIdx_eq_map_ok fun i x hx => h x hx _ _).trans (by rw [List.map_id'])

/-- A map is filled again with its entries, if the value of each is decoded as itself. -/
theorem decodeMap_encode (hreg : ctx.registry = Registry.defaults)
    (hpre : ctx.preprocessors = []) {inner : Shape α} (hi : inner.foreign = false)
    {es : List (String × Value α)} (hk : (Entries.keys es).Nodup)
    {decodeValue : Site → Node → Outcome (Value α)}
    (h : ∀ e ∈ es, ∀ site origin, decodeValue site (e.2.encode place origin) = .ok e.2)
    (site origin : Site) (p : Place) :
    ctx.decodeMap inner decodeValue site (.map (Value.encodeEntries place origin 0 es) p) =
      .ok (.map es) := by
  rw [decodeMap_builtin hreg hi]
  refine Outcome.gather_eq_ok_iff.mpr ⟨es, ?_, by rw [Entries.ofPairs_eq_self hk]⟩
  rw [Value.encodeEntries_eq, List.mapIdx_mapIdx]
  have hentries : ∀ i, ∀ e ∈ es,
      ctx.decodeEntry decodeValue (i :: site) (e.1, e.2.encode place ((i + 0) :: origin)) =
        .ok (id e) := by
    intro i e he
    rw [decodeEntry, preprocess_eq_self hpre, h e he]
    rfl
  exact (mapIdx_eq_map_ok hentries).trans (by rw [List.map_id])

/-! ### Records -/

/-- Each entry is found under its key. -/
theorem atKey_encodeEntries {es : List (String × Value α)} (hk : (Entries.keys es).Nodup)
    {i : Nat} {name : String} {x : Value α} (hi : es[i]? = some (name, x)) (origin : Site)
    (p : Place) :
    (Node.map (Value.encodeEntries place origin 0 es) p).atKey name =
      x.encode place (i :: origin) := by
  have hmem : (name, x.encode place (i :: origin)) ∈ Value.encodeEntries place origin 0 es := by
    refine List.mem_of_getElem? (i := i) ?_
    rw [Value.encodeEntries_eq, List.getElem?_mapIdx, hi]
    rfl
  rw [Node.atKey, Entries.lookup_of_mem (Value.keys_encodeEntries origin es 0 ▸ hk) hmem]
  rfl

/-- A field is bound to the value that its entry writes out. An explicit null stays, even
if there is a default. -/
theorem bindField_encode (hpre : ctx.preprocessors = []) {field : ShapeField α} {record : Node}
    {x : Value α} {origin : Site}
    (hc : ctx.resolveField record field.name = x.encode place origin) (hx : HasShape field.shape x)
    {decodeValue : Site → Node → Outcome (Value α)} {site : Site}
    (h : decodeValue site (x.encode place origin) = .ok x) :
    ctx.bindField field decodeValue site record = .ok (some x) := by
  rcases hx.encode_isPresent place origin with ⟨rfl, hn⟩ | hp
  · rw [bindField, hc, preprocess_eq_self hpre]
    exact if_pos hn
  · rw [bindField_present ((preprocess_eq_self hpre _).trans hc) hp, h]
    rfl

/-- The fields of a record are bound to the values of its entries, if each is decoded as
itself. -/
theorem fieldOutcomes_encode (hspell : ctx.spellings.head? = some FieldName.asDeclared)
    (hpre : ctx.preprocessors = []) {fields : List (ShapeField α)}
    (hn : (fields.map (·.name)).Nodup) {es : List (String × Value α)}
    (hs : HaveShapes fields es)
    (h : ∀ field ∈ fields, ∀ x, HasShape field.shape x → ∀ site origin,
      ctx.decodeAt field.shape site (x.encode place origin) = .ok x)
    (site origin : Site) (p : Place) :
    ctx.fieldOutcomes fields site (.map (Value.encodeEntries place origin 0 es) p) =
      (es.map (some ·.2)).map .ok := by
  have hk : (Entries.keys es).Nodup := hs.keys_eq ▸ hn
  have hlen : fields.length = es.length := by
    rw [← List.length_map (·.name), ← hs.keys_eq, Entries.keys, List.length_map]
  rw [fieldOutcomes, List.mapIdx_eq_iff]
  intro i
  cases hf : fields[i]? with
  | none =>
    rw [List.getElem?_eq_none_iff, hlen] at hf
    rw [List.getElem?_eq_none (by simpa using hf), Option.map_none]
  | some field =>
    obtain ⟨x, hx, hshape⟩ := hs.exists_entry hf
    have hmem : field ∈ fields := List.mem_of_getElem? hf
    have hchild : (Node.map (Value.encodeEntries place origin 0 es) p).atKey field.name =
        x.encode place (i :: origin) := atKey_encodeEntries hk hx origin p
    have hdefined : ((Node.map (Value.encodeEntries place origin 0 es) p).atKey
        field.name).isDefined = true := by
      rw [hchild]
      rcases hshape.encode_isPresent place (i :: origin) with ⟨rfl, -⟩ | hp
      · rfl
      · exact (Bool.and_eq_true_iff.mp hp).1
    have hresolve := (resolveField_declared hspell hdefined).trans hchild
    rw [List.getElem?_map, List.getElem?_map, hx, Option.map_some, Option.map_some,
      Option.map_some, bindField_encode hpre hresolve hshape (h field hmem x hshape _ _)]

/-! ### All levels -/

/-- A value of a shape is decoded as itself wherever its parts are. -/
theorem decodeAt_encode (hreg : ctx.registry = Registry.defaults)
    (hspell : ctx.spellings.head? = some FieldName.asDeclared) (hpre : ctx.preprocessors = [])
    {shape : Shape α} : shape.Everywhere Shape.Structural →
    shape.Everywhere Shape.DistinctFields → ∀ value, HasShape shape value →
      ∀ site origin, ctx.decodeAt shape site (value.encode place origin) = .ok value := by
  induction shape using Shape.induction with
  | leaf kind nullable =>
    intro hs hn value h site origin
    rw [decodeAt_leaf hreg hs.self.not_foreign]
    cases h with
    | null h => exact if_pos h
    | int hlo hhi =>
      have hfit : Number.fitsInt32 _ = true :=
        Bool.and_eq_true_iff.mpr ⟨decide_eq_true hlo, decide_eq_true hhi⟩
      exact if_pos hfit
    | enum hc =>
      rw [Value.encode, guardNull_present rfl, decodeLeaf_enum]
      simp only [Shape.constant?_of_mem hc]
    | _ => rfl
  | collection kind element nullable ih =>
    intro hs hn value h site origin
    have he := hs.element.self.not_foreign
    have hparts := ih hs.element hn.element
    rw [decodeAt_collection hreg]
    cases h with
    | null h => exact if_pos h
    | list hx =>
      rw [Value.encode, guardNull_present rfl]
      exact decodeCollection_encode hreg hpre .list he (fun x hm => hparts x (hx x hm)) site
        origin _
    | set hx hd =>
      rw [Value.encode, guardNull_present rfl]
      rw [decodeCollection_encode hreg hpre .set he (fun x hm => hparts x (hx x hm)) site origin _,
        Collection.collect, Value.setOf_eq_self hd]
  | map inner nullable ih =>
    intro hs hn value h site origin
    have hi := hs.value.self.not_foreign
    have hparts := ih hs.value hn.value
    rw [decodeAt_map hreg]
    cases h with
    | null h => exact if_pos h
    | map hk hx =>
      rw [Value.encode, guardNull_present rfl]
      exact decodeMap_encode hreg hpre hi hk (fun e hm => hparts e.2 (hx e hm)) site origin _
  | record name fields constructor? nullable ih =>
    intro hs hn value h site origin
    rw [decodeAt_record hreg]
    cases h with
    | null h => exact if_pos h
    | @record _ _ _ es hf =>
      have hlen : fields.length = (es.map (some ·.2)).length := by
        rw [← List.length_map (·.name), ← hf.keys_eq, Entries.keys, List.length_map,
          List.length_map]
      have hparts : ∀ field ∈ fields, ∀ x, HasShape field.shape x → ∀ site origin,
          ctx.decodeAt field.shape site (x.encode place origin) = .ok x :=
        fun field hm => ih field hm (hs.field hm) (hn.field hm)
      rw [Value.encode, guardRecord_offers rfl,
        fieldOutcomes_encode hspell hpre hn.self hf hparts, buildRecord_of_values]
      simp only [Shape.instantiate, Arguments.materialize_ofBindings hn.self hlen, hf.named_eq]

/-- **Decoding undoes the encoding.** A value of a shape, written out with its nodes at any
places, is decoded as itself. The shape asks for no decoder and no constructor of the
application, and the fields of each record differ in their names. Their defaults do not
matter. -/
theorem decode_encode (hreg : ctx.registry = Registry.defaults)
    (hspell : ctx.spellings.head? = some FieldName.asDeclared) (hpre : ctx.preprocessors = [])
    {shape : Shape α} (hs : shape.Everywhere Shape.Structural)
    (hn : shape.Everywhere Shape.DistinctFields) {value : Value α} (h : HasShape shape value)
    (place : Site → Place) : ctx.decode (value.encode place []) shape = .ok value := by
  rw [decode_eq_decodeAt]
  exact decodeAt_encode hreg hspell hpre hs hn value h [] []

/-- Limits by name, and a mode that is fast by default but may be null. -/
def quotaShape : Shape Unit :=
  .record "Quota"
    [⟨"max_sizes", .map (.collection .set (.leaf .int false) true) false, none⟩,
      ⟨"mode", .leaf (.enum "Mode" ["fast", "safe"]) true, some (.enum "fast")⟩] none false

/-- Two sizes for uploads, none for downloads, and no mode in spite of the default. -/
def quota : Value Unit :=
  .record "Quota"
    [("max_sizes", .map [("up", .set [.long 80, .long (-1)]), ("down", .null)]),
      ("mode", .null)]

/-- The same, written out. -/
def quotaNode : Node :=
  .map
    [("max_sizes", .map
        [("up", .array [.long 80 ⟨.unknown, "4"⟩, .long (-1) ⟨.unknown, "4"⟩] ⟨.unknown, "3"⟩),
          ("down", .null ⟨.unknown, "3"⟩)] ⟨.unknown, "2"⟩),
      ("mode", .null ⟨.unknown, "2"⟩)] ⟨.unknown, "1"⟩

/-- Fields are looked for as declared and then in camel case. -/
def quotaContext : Context Unit := (ofRegistry .defaults).withSpelling FieldName.camelCase

theorem hasShape_quota : HasShape quotaShape quota := by
  have hsizes : HasShape (.collection .set (.leaf .int false) true)
      (Value.set (α := Unit) [.long 80, .long (-1)]) := by
    refine .set (fun x hx => ?_) (by simp [Value.equals])
    rcases List.mem_pair.mp hx with rfl | rfl
    · exact .int (by decide) (by decide)
    · exact .int (by decide) (by decide)
  refine .record (.cons (.map (by decide) fun e he => ?_) (.cons (.null rfl) .nil))
  rcases List.mem_pair.mp he with rfl | rfl
  · exact hsizes
  · exact .null rfl

theorem decode_quotaNode :
    (quotaContext.registry = .defaults ∧
      quotaContext.spellings.head? = some FieldName.asDeclared ∧
      quotaContext.preprocessors = [] ∧ quotaShape.Everywhere Shape.Structural ∧
      quotaShape.Everywhere Shape.DistinctFields ∧ HasShape quotaShape quota) ∧
    quotaContext.decode quotaNode quotaShape = .ok quota := by
  have hstructural : quotaShape.Everywhere Shape.Structural := by
    simp [quotaShape, Shape.Everywhere, Shape.EveryField, Shape.Structural]
  have hfields : quotaShape.Everywhere Shape.DistinctFields := by
    simp [quotaShape, Shape.Everywhere, Shape.EveryField, Shape.DistinctFields]
  -- the path of each node tells how deep it is
  let place : Site → Place := fun site => ⟨.unknown, natText (site.length + 1)⟩
  exact ⟨⟨rfl, rfl, rfl, hstructural, hfields, hasShape_quota⟩,
    decode_encode rfl rfl rfl hstructural hfields hasShape_quota place⟩

end Context
end TypedConfig
