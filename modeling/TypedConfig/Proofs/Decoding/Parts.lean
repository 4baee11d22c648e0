/-
# A part is decoded the same wherever it stands

A node may be the value of a field, an element of a list or a set, or the value
under a key of a map. Null and absence are dealt with in three places: where a
field is bound, in front of every decoder that leaves null to the decoding, and
where a record is decoded. All three come to the same (`decodeAt_null_of_ok`), so
a node that is there gives in each place what it gives by itself
(`decodeAt_parts`).

This holds for the built-in decoders and also if the application adds decoders
for types of its own, as long as they leave absent and null nodes to the decoding
(`Registry.IsExtension`).

Key definitions: `Registry.IsExtension`.
Key theorems: `Context.decodeAt_null_of_ok`, `Context.bindField_of_defined`,
`Context.decodeAt_parts`.
-/
import TypedConfig.Proofs.Decoding.Builtin
import TypedConfig.Proofs.Registry

namespace TypedConfig

variable {α : Type}

namespace Registry

/-- The registry is that of the built-in decoders with further ones for types of the
application, which leave absent and null nodes to the decoding. -/
structure IsExtension (registry : Registry α) (users : List (CustomDecoder α)) : Prop where
  registry_eq : registry = defaults.registerAll (users.map .custom)
  guarded : ∀ d ∈ users, d.guardsNull = true
  foreign : ∀ d ∈ users, ∀ shape, d.supports shape = true → shape.foreign = true

namespace IsExtension

variable {registry : Registry α} {users : List (CustomDecoder α)} {shape : Shape α}

/-- The built-in decoders keep all shapes that they know. -/
theorem resolve_builtin (h : registry.IsExtension users) (hs : shape.foreign = false) :
    ∃ kind, registry.resolve shape = .ok (.builtin kind) := by
  have hdefer : defaults.Defers (users.map .custom) shape := by
    intro d hd hsupports
    obtain ⟨user, hu, rfl⟩ := List.mem_map.mp hd
    have hforeign : shape.foreign = true := h.foreign user hu shape hsupports
    rw [hs] at hforeign
    cases hforeign
  rw [h.registry_eq, resolve_registerAll hdefer]
  exact (resolve_defaults shape).2 hs

theorem guarded_of_resolve (h : registry.IsExtension users) {decoder : CustomDecoder α}
    (hr : registry.resolve shape = .ok (.custom decoder)) : decoder.guardsNull = true := by
  have hmem := (resolve_eq_ok_iff.mp hr).mem
  rw [h.registry_eq, decoders_registerAll] at hmem
  rcases List.mem_append.mp hmem with hm | hm
  · simp [defaults] at hm
  · obtain ⟨user, hu, he⟩ := List.mem_map.mp hm
    cases he
    exact h.guarded decoder hu

end IsExtension
end Registry

namespace Context

variable {ctx : Context α} {users : List (CustomDecoder α)} {shape : Shape α}
  {decoder : Decoder α}

/-! ### Null -/

/-- An explicit null is null or refused, whatever decoder is picked for the shape. -/
theorem decodeAt_null_of_ok (hext : ctx.registry.IsExtension users)
    (hs : ctx.registry.resolve shape = .ok decoder) (site : Site) (place : Place) :
    ctx.decodeAt shape site (.null place) =
      if shape.nullable then .ok .null else .fail (.ofNull (.null place)) := by
  cases decoder with
  | custom decoder =>
    obtain ⟨decoded, hd⟩ :=
      decodeAt_of_guarded hs (hext.guarded_of_resolve hs) site (.null place)
    rw [hd]
    rfl
  | builtin kind =>
    cases shape with
    | leaf kind nullable =>
      rw [decodeAt_leaf_of_builtin hs]
      rfl
    | collection kind element nullable =>
      rw [decodeAt_collection_of_builtin hs]
      rfl
    | map value nullable =>
      rw [decodeAt_map_of_builtin hs]
      rfl
    | record name fields constructor? nullable =>
      rw [decodeAt_record_of_builtin hs]
      rfl

/-- A field that is there is bound to what its node gives by itself, null included. -/
theorem bindField_of_defined (hext : ctx.registry.IsExtension users) {field : ShapeField α}
    (hs : ctx.registry.resolve field.shape = .ok decoder) {record child : Node}
    (hchild : ctx.preprocess (ctx.resolveField record field.name) = child)
    (hdefined : child.isDefined = true) (site : Site) :
    ctx.bindField field (ctx.decodeAt field.shape) site record =
      (ctx.decodeAt field.shape site child).map some := by
  rcases child.absent_or_present with rfl | ⟨place, rfl⟩ | hpresent
  · simp [Node.isDefined] at hdefined
  · rw [bindField, hchild, decodeAt_null_of_ok hext hs]
    by_cases hn : field.shape.nullable = true
    · simp [hn, Except.map]
    · simp [hn, Outcome.fail, Except.map]
  · exact bindField_present hchild hpresent (ctx.decodeAt field.shape) site

/-! ### Parts -/

/-- **A part is decoded the same wherever it stands.** Let a decoder be known for the shape,
and let the node be there once it is preprocessed. As the value of a field, as an element of a
list or a set and as a value of a map the node gives what it gives by itself: the value goes
into the whole, and failures come under the wrapper of the place. A null is taken or refused as
the shape says in all of them. -/
theorem decodeAt_parts (hext : ctx.registry.IsExtension users)
    (hs : ctx.registry.resolve shape = .ok decoder) {child : Node}
    (hchild : (ctx.preprocess child).isDefined = true) :
    (∀ name fields constructor? nullable site record, record.offersFields nullable = true →
      ctx.decodeAt (.record name fields constructor? nullable) site record =
          buildRecord name fields constructor? site record
            (List.zipWith nameOutcome fields (ctx.fieldOutcomes fields site record)) ∧
        ∀ i field, fields[i]? = some field → field.shape = shape →
          ctx.resolveField record field.name = child →
          (ctx.fieldOutcomes fields site record)[i]? =
            some ((ctx.decodeAt shape (i :: site) (ctx.preprocess child)).map some)) ∧
    (∀ kind nullable site elements place,
      ctx.decodeAt (.collection kind shape nullable) site (.array elements place) =
        ((Outcome.sequence (elements.mapIdx fun i element =>
            ctx.decodeAt shape (i :: site) (ctx.preprocess element))).wrap
          (.elements kind.name place.path)).map kind.collect) ∧
    (∀ nullable site entries place,
      ctx.decodeAt (.map shape nullable) site (.map entries place) =
        ((Outcome.sequence (entries.mapIdx fun i entry =>
            ((ctx.decodeAt shape (i :: site) (ctx.preprocess entry.2)).wrap (.field entry.1)).map
              (entry.1, ·))).wrap
          (.elements "Map" place.path)).map fun pairs => .map (Entries.ofPairs pairs)) ∧
    ∀ site place, ctx.decodeAt shape site (.null place) =
      if shape.nullable then .ok .null else .fail (.ofNull (.null place)) := by
  refine ⟨?_, ?_, ?_, decodeAt_null_of_ok hext hs⟩
  · intro name fields constructor? nullable site record hoffers
    obtain ⟨builtin, hr⟩ := hext.resolve_builtin
      (show (Shape.record name fields constructor? nullable).foreign = false from rfl)
    refine ⟨?_, fun i field hi hshape hresolved => ?_⟩
    · rw [decodeAt_record_of_builtin hr, guardRecord_offers hoffers]
    · subst hshape
      have hbound := bindField_of_defined hext hs (congrArg ctx.preprocess hresolved) hchild
        (i :: site)
      rw [fieldOutcomes, List.getElem?_mapIdx, hi, Option.map_some, hbound]
  · intro kind nullable site elements place
    obtain ⟨builtin, hr⟩ := hext.resolve_builtin
      (show (Shape.collection kind shape nullable).foreign = false from rfl)
    rw [decodeAt_collection_of_builtin hr, guardNull_present rfl, decodeCollection_of_ok hs,
      elements?]
    simp only [mapIdx_map]
    rfl
  · intro nullable site entries place
    obtain ⟨builtin, hr⟩ := hext.resolve_builtin
      (show (Shape.map shape nullable).foreign = false from rfl)
    rw [decodeAt_map_of_builtin hr, guardNull_present rfl, decodeMap_of_ok hs]
    rfl

/-- A decoder of the application for regions, which are known by their names. -/
def regionDecoder : CustomDecoder Unit :=
  ⟨"region", (·.isNamed "Region"), 0, true, fun _ _ node shape =>
    match node.text? with
    | some text => .ok (.string ("region " ++ text))
    | none => .fail (.ofKind node shape.text)⟩

/-- A region, or none. -/
def regionShape : Shape Unit := .leaf (.named "Region") true

/-- The built-in decoders and the one for regions. -/
def regionContext : Context Unit :=
  ofRegistry (Registry.defaults.registerAll ([regionDecoder].map .custom))

theorem regionContext_isExtension : regionContext.registry.IsExtension [regionDecoder] where
  registry_eq := rfl
  guarded := by simp [regionDecoder]
  foreign := by
    intro d hd shape hs
    rw [List.mem_singleton.mp hd] at hs
    have hnamed : shape.isNamed "Region" = true := hs
    cases shape with
    | leaf kind nullable => cases kind <;> simp_all [Shape.isNamed, Shape.foreign]
    | _ => simp [Shape.isNamed] at hnamed

/-- No region is given in the list as well as in a field with a default. -/
theorem decodeAt_regions :
    regionContext.registry.IsExtension [regionDecoder] ∧
      regionContext.registry.resolve regionShape = .ok (.custom regionDecoder) ∧
      (regionContext.preprocess (.null ⟨.unknown, "<root>.home"⟩)).isDefined = true ∧
      regionContext.decodeAt (.collection .list regionShape false) []
          (.array [.string "eu" ⟨.unknown, "<root>[0]"⟩, .null ⟨.unknown, "<root>[1]"⟩]
            ⟨.unknown, "<root>"⟩) =
        .ok (.list [.string "region eu", .null]) ∧
      (regionContext.fieldOutcomes [⟨"home", regionShape, some (.string "region us")⟩] []
          (.map [("home", .null ⟨.unknown, "<root>.home"⟩)] ⟨.unknown, "<root>"⟩))[0]? =
        some (.ok (some .null)) := by
  have hs : regionContext.registry.resolve regionShape = .ok (.custom regionDecoder) := rfl
  have hchild : (regionContext.preprocess (.null ⟨.unknown, "<root>.home"⟩)).isDefined = true :=
    rfl
  obtain ⟨hfields, helements, -, hnull⟩ := decodeAt_parts regionContext_isExtension hs hchild
  refine ⟨regionContext_isExtension, hs, hchild, ?_, ?_⟩
  · rw [helements]
    rfl
  · have hfield := (hfields "Home" [⟨"home", regionShape, some (.string "region us")⟩] none false []
      (.map [("home", .null ⟨.unknown, "<root>.home"⟩)] ⟨.unknown, "<root>"⟩) rfl).2 0 _ rfl rfl rfl
    have hown := hnull [0] ⟨.unknown, "<root>.home"⟩
    rw [hfield]
    exact congrArg (fun o : Outcome (Value Unit) => some (o.map some)) hown

end Context
end TypedConfig
