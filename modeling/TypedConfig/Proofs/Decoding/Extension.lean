/-
# Further decoders that change nothing

An application may register decoders of its own beside the built-in ones. As long
as none of them outranks the built-in decoder of the shape or of a shape inside
it, decoding goes on as before (`decodeAt_registerAll`): the decoder of every
part is picked anew, but it is always the one that was picked before, and what
the decoders of the application might do is never asked for.

The induction is on the shape, for any two registries that decode each shape inside it
by the same decoder (`decodeWith_withRegistry`). At each level the decoder of that level
and the check for the decoder of its parts come out the same.

Key definitions: `Context.withRegistry`, `Context.registerAll`, `Context.SameDecoder`.
Key theorems: `Context.decodeCollection_withRegistry`, `Context.decodeMap_withRegistry`,
`Context.decodeWith_withRegistry`, `Context.decodeAt_registerAll`.
-/
import TypedConfig.Proofs.Decoding.Builtin
import TypedConfig.Proofs.Registry

namespace TypedConfig
namespace Context

variable {α : Type} {ctx : Context α} {added : List (Decoder α)}

/-- The context with another registry. -/
def withRegistry (ctx : Context α) (registry : Registry α) : Context α :=
  { ctx with registry := registry }

/-- The context with further decoders, registered one after another. -/
def registerAll (ctx : Context α) (added : List (Decoder α)) : Context α :=
  ctx.withRegistry (ctx.registry.registerAll added)

/-! ### One level of a decoding -/

section WithRegistry

variable (registry : Registry α)

theorem preprocess_withRegistry (node : Node) :
    (ctx.withRegistry registry).preprocess node = ctx.preprocess node := rfl

theorem resolveField_withRegistry (node : Node) (name : String) :
    (ctx.withRegistry registry).resolveField node name = ctx.resolveField node name := rfl

theorem elements?_withRegistry (node : Node) :
    (ctx.withRegistry registry).elements? node = ctx.elements? node := by
  cases node <;> rfl

theorem bindField_withRegistry (field : ShapeField α)
    (decodeValue : Site → Node → Outcome (Value α)) (site : Site) (record : Node) :
    (ctx.withRegistry registry).bindField field decodeValue site record =
      ctx.bindField field decodeValue site record := by
  simp only [bindField, preprocess_withRegistry, resolveField_withRegistry]

variable {registry}

/-- A collection is filled with the same if the decoder of its elements is the same. -/
theorem decodeCollection_withRegistry {element : Shape α}
    (h : registry.resolve element = ctx.registry.resolve element)
    (kind : Collection) (decodeElement : Site → Node → Outcome (Value α)) (site : Site)
    (node : Node) :
    (ctx.withRegistry registry).decodeCollection kind element decodeElement site node =
      ctx.decodeCollection kind element decodeElement site node := by
  cases hr : ctx.registry.resolve element with
  | error failures =>
    rw [decodeCollection_of_error hr, decodeCollection_of_error (h.trans hr)]
  | ok decoder =>
    rw [decodeCollection_of_ok hr, decodeCollection_of_ok (h.trans hr), elements?_withRegistry]

/-- A map is filled with the same if the decoder of its values is the same. -/
theorem decodeMap_withRegistry {value : Shape α}
    (h : registry.resolve value = ctx.registry.resolve value)
    (decodeValue : Site → Node → Outcome (Value α)) (site : Site) (node : Node) :
    (ctx.withRegistry registry).decodeMap value decodeValue site node =
      ctx.decodeMap value decodeValue site node := by
  rcases node.map_or_not with ⟨entries, place, rfl⟩ | hno
  · cases hr : ctx.registry.resolve value with
    | error failures => rw [decodeMap_of_error hr, decodeMap_of_error (h.trans hr)]
    | ok decoder =>
      rw [decodeMap_of_ok hr, decodeMap_of_ok (h.trans hr)]
      simp only [decodeEntry, preprocess_withRegistry]
  · rw [decodeMap_no_map _ _ _ hno, decodeMap_no_map _ _ _ hno]

end WithRegistry

variable {registry : Registry α} {delegate delegate' : Delegate α} {shape : Shape α}

theorem dispatch_withRegistry (h : registry.resolve shape = ctx.registry.resolve shape)
    (site : Site) (node : Node) (builtin : Outcome (Value α)) :
    (ctx.withRegistry registry).dispatch delegate shape site node builtin =
      ctx.dispatch delegate shape site node builtin := by
  have hpicked : (ctx.withRegistry registry).registry.resolve shape =
      ctx.registry.resolve shape := h
  rw [dispatch, dispatch, hpicked]
  rfl

/-- Where no decoder of the application is picked, nothing is handed back. -/
theorem dispatch_of_no_custom (h : ∀ decoder, ctx.registry.resolve shape ≠ .ok (.custom decoder))
    (site : Site) (node : Node) (builtin : Outcome (Value α)) :
    ctx.dispatch delegate shape site node builtin =
      ctx.dispatch delegate' shape site node builtin := by
  rw [dispatch, dispatch]
  cases hr : ctx.registry.resolve shape with
  | error failures => rfl
  | ok decoder =>
    cases decoder with
    | builtin kind => rfl
    | custom decoder => exact absurd hr (h decoder)

/-! ### All levels -/

/-- Another registry, together with another way to decode what decoders of the application hand
back, picks the same decoder for the shape, and what is picked gives the same. -/
structure SameDecoder (ctx : Context α) (registry : Registry α) (delegate delegate' : Delegate α)
    (shape : Shape α) : Prop where
  resolve_eq : registry.resolve shape = ctx.registry.resolve shape
  dispatch_eq : ∀ site node builtin,
    (ctx.withRegistry registry).dispatch delegate shape site node builtin =
      ctx.dispatch delegate' shape site node builtin

theorem SameDecoder.of_resolve (h : registry.resolve shape = ctx.registry.resolve shape) :
    ctx.SameDecoder registry delegate delegate shape :=
  ⟨h, dispatch_withRegistry h⟩

theorem SameDecoder.of_no_custom (h : registry.resolve shape = ctx.registry.resolve shape)
    (hno : ∀ decoder, ctx.registry.resolve shape ≠ .ok (.custom decoder)) :
    ctx.SameDecoder registry delegate delegate' shape :=
  ⟨h, fun site node builtin =>
    (dispatch_withRegistry h site node builtin).trans (dispatch_of_no_custom hno site node builtin)⟩

/-- If the decoders of a shape and of all shapes inside it are the same, so is the decoding. -/
theorem decodeWith_withRegistry
    (h : shape.Everywhere (ctx.SameDecoder registry delegate delegate')) :
    (ctx.withRegistry registry).decodeWith delegate shape = ctx.decodeWith delegate' shape := by
  induction shape using Shape.induction with
  | leaf kind nullable =>
    funext site node
    rw [decodeWith, decodeWith, h.self.dispatch_eq]
  | collection kind element nullable ih =>
    funext site node
    rw [decodeWith, decodeWith, h.self.dispatch_eq, ih h.element,
      decodeCollection_withRegistry h.element.self.resolve_eq]
  | map value nullable ih =>
    funext site node
    rw [decodeWith, decodeWith, h.self.dispatch_eq, ih h.value,
      decodeMap_withRegistry h.value.self.resolve_eq]
  | record name fields constructor? nullable ih =>
    funext site node
    have hbound : (fields.mapIdx fun i field =>
        (ctx.withRegistry registry).bindField field
          ((ctx.withRegistry registry).decodeWith delegate field.shape) ((i + 0) :: site) node) =
        fields.mapIdx fun i field =>
          ctx.bindField field (ctx.decodeWith delegate' field.shape) ((i + 0) :: site) node := by
      rw [List.mapIdx_eq_mapIdx_iff]
      intro i hi
      have hm := List.getElem_mem hi
      rw [ih _ hm (h.field hm), bindField_withRegistry]
    rw [decodeWith, decodeWith, h.self.dispatch_eq, decodeFields_eq, decodeFields_eq, hbound]

/-- The built-in decoders hand nothing back. -/
theorem resolve_ne_custom (hreg : ctx.registry = Registry.defaults) (shape : Shape α)
    (decoder : CustomDecoder α) : ctx.registry.resolve shape ≠ .ok (.custom decoder) := by
  intro h
  cases hf : shape.foreign with
  | true =>
    rw [resolve_foreign hreg hf] at h
    cases h
  | false =>
    obtain ⟨builtin, hr⟩ := resolve_builtin hreg hf
    rw [hr] at h
    cases h

/-- **Registering decoders is a conservative extension.** If no decoder that is added outranks
the built-in one for the shape or a shape inside it, every node is decoded as before, to the
same value or with the same failures. -/
theorem decodeAt_registerAll (hreg : ctx.registry = Registry.defaults) {shape : Shape α}
    (hdefer : shape.Everywhere (Registry.defaults.Defers added)) (site : Site) (node : Node) :
    (ctx.registerAll added).decodeAt shape site node = ctx.decodeAt shape site node := by
  obtain ⟨delegate, hafter⟩ := (ctx.registerAll added).exists_delegate
  obtain ⟨delegate', hbefore⟩ := ctx.exists_delegate
  -- what is handed back is decoded otherwise now, but no decoder that is picked hands back
  have hsame : shape.Everywhere
      (ctx.SameDecoder (ctx.registry.registerAll added) delegate delegate') := by
    refine hdefer.imp fun part hpart => .of_no_custom ?_ (resolve_ne_custom hreg part)
    rw [hreg]
    exact Registry.resolve_registerAll hpart
  rw [hafter, hbefore, registerAll, decodeWith_withRegistry hsame]

/-- A decoder of the application that claims every shape, at the lowest priority. -/
def fallback : Decoder Unit :=
  .custom ⟨"fallback", fun _ => true, Int32.minValue, false, fun _ _ _ _ => .ok .null⟩

/-- A decoder of the application that claims texts, at the priority of the built-in one. -/
def constantText : Decoder Unit :=
  .custom ⟨"constantText", fun shape => shape.text == "String", 0, true,
    fun _ _ _ _ => .ok (.string "?")⟩

/-- A record of a name and a list of numbers. -/
def labelledShape : Shape Unit :=
  .record "Labelled"
    [⟨"name", .leaf .string false, none⟩,
      ⟨"sizes", .collection .list (.leaf .long false) false, none⟩] none false

/-- The numbers are written as one text. -/
def labelledNode : Node :=
  .map [("name", .string "a" ⟨.unknown, "<root>.name"⟩),
    ("sizes", .string "1, 2" ⟨.unknown, "<root>.sizes"⟩)] ⟨.unknown, "<root>"⟩

theorem labelledShape_defers :
    labelledShape.Everywhere (Registry.defaults.Defers [fallback, constantText]) := by
  have hleaf : Registry.defaults.Defers [fallback, constantText]
      (.leaf .string false : Shape Unit) := by
    intro d hd _
    refine ⟨.builtin .string, rfl, ?_⟩
    simp only [List.mem_cons, List.not_mem_nil, or_false] at hd
    rcases hd with rfl | rfl <;> decide
  -- the decoder of texts claims nothing else
  have hother : ∀ (t : Shape Unit) (kind : Builtin), (t.text == "String") = false →
      Registry.defaults.resolve t = .ok (.builtin kind) →
      Registry.defaults.Defers [fallback, constantText] t := by
    intro t kind ht hr d hd hs
    refine ⟨.builtin kind, hr, ?_⟩
    simp only [List.mem_cons, List.not_mem_nil, or_false] at hd
    rcases hd with rfl | rfl
    · cases kind <;> decide
    · have hclaims : (t.text == "String") = true := hs
      rw [ht] at hclaims
      cases hclaims
  simp only [labelledShape, Shape.Everywhere, Shape.EveryField, and_true]
  exact ⟨hother _ .record (by decide) rfl, hleaf, hother _ .list (by decide) rfl,
    hother _ .long (by decide) rfl⟩

/-- Both decoders are registered, and the built-in ones still decode the record. -/
theorem decodeAt_labelledNode :
    (ofRegistry (α := Unit) .defaults).registry = .defaults ∧
      labelledShape.Everywhere (Registry.defaults.Defers [fallback, constantText]) ∧
      ((ofRegistry .defaults).registerAll [fallback, constantText]).decodeAt labelledShape []
        labelledNode =
        .ok (.record "Labelled" [("name", .string "a"), ("sizes", .list [.long 1, .long 2])]) := by
  have hreg : (ofRegistry (α := Unit) .defaults).registry = .defaults := rfl
  refine ⟨hreg, labelledShape_defers, ?_⟩
  rw [decodeAt_registerAll hreg labelledShape_defers]
  rfl

end Context
end TypedConfig
