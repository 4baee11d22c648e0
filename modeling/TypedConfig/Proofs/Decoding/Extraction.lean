/-
# What is decoded can be read as a matching type

A record constructor reads its arguments as the types that it needs. A target
suits a shape if it goes with the leaves of the shape and has the same nesting,
and a shape that accepts null is read as an optional target (`Shape.Matches`).
What is decoded as a shape can then be read as every target that suits the shape
(`readable_of_decodeAt`), and so can what a field is bound to, whether a node
was found for it or null stands in (`readable_of_bindField`).

The induction is on the pair of shape and target. At each level the decoder says
what the value is made of, and reading the parts is left to the parts. Null is
dealt with once: either the value is null, or the shape gives the same value
where null is not acceptable (`null_or_decodeAt_withNullable`).

Key definitions: `Leaf.Suits`, `Shape.Matches`.
Key theorems: `Context.null_or_decodeAt_withNullable`, `Context.readable_of_decodeAt`,
`Context.readable_of_bindField`, `Context.exists_get_of_isBound`,
`Context.decodeAt_extract`.
-/
import TypedConfig.Proofs.Decoding.Soundness
import TypedConfig.Proofs.Value.Extraction

namespace TypedConfig

variable {α : Type}

/-- The leaf can be read as the target: whole numbers also as doubles, constants as texts
and texts as paths. -/
inductive Leaf.Suits : Leaf → Target → Prop
  | string : Suits .string .text
  | enum {name : String} {constants : List String} : Suits (.enum name constants) .text
  | long : Suits .long .long
  | intAsLong : Suits .int .long
  | int : Suits .int .int
  | double : Suits .double .double
  | longAsDouble : Suits .long .double
  | intAsDouble : Suits .int .double
  | boolean : Suits .boolean .boolean
  | path : Suits .path .path
  | stringAsPath : Suits .string .path

/-- The shape can be read as the target. Null is only read as nothing, unless the value is
read as it is. -/
inductive Shape.Matches : Shape α → Target → Prop
  | value {shape : Shape α} : Matches shape .value
  | leaf {kind : Leaf} {target : Target} (h : kind.Suits target) :
      Matches (.leaf kind false) target
  | list {kind : Collection} {element : Shape α} {target : Target} (h : Matches element target) :
      Matches (.collection kind element false) (.list target)
  | entries {inner : Shape α} {target : Target} (h : Matches inner target) :
      Matches (.map inner false) (.entries target)
  | table {inner : Shape α} {target : Target} (h : Matches inner target) :
      Matches (.map inner false) (.table target)
  | optional {shape : Shape α} {target : Target} (h : Matches (shape.withNullable false) target) :
      Matches shape (.optional target)

/-- A value of a leaf can be read as a target that suits the leaf. -/
theorem HasShape.readableAs {kind : Leaf} {target : Target} {value : Value α}
    (hv : HasShape (.leaf kind false) value) (h : kind.Suits target) :
    value.ReadableAs target := by
  cases hv with
  | null hn => cases hn
  | @string _ s =>
    cases h with
    | string => exact ⟨s, rfl, Or.inl rfl⟩
    | stringAsPath => exact ⟨⟨s⟩, rfl, Or.inr rfl⟩
  | @long _ k =>
    cases h with
    | long => exact ⟨k, rfl, rfl⟩
    | longAsDouble => exact ⟨.ofInt64 k, rfl, Or.inr ⟨k, rfl, rfl⟩⟩
  | @int _ k hlo hhi =>
    cases h with
    | int => exact .int hlo hhi
    | intAsLong => exact ⟨k, rfl, rfl⟩
    | intAsDouble => exact ⟨.ofInt64 k, rfl, Or.inr ⟨k, rfl, rfl⟩⟩
  | @double _ x =>
    cases h
    exact ⟨x, rfl, Or.inl rfl⟩
  | @boolean _ b =>
    cases h
    exact ⟨b, rfl, rfl⟩
  | @path _ p =>
    cases h
    exact ⟨p, rfl, Or.inl rfl⟩
  | @enum _ _ _ c hc =>
    cases h
    exact ⟨c, rfl, Or.inr rfl⟩

/-- Where null is acceptable it can be read. -/
theorem Shape.Matches.readableAs_null {shape : Shape α} {target : Target}
    (h : shape.Matches target) (hn : shape.nullable = true) :
    (Value.null : Value α).ReadableAs target := by
  cases h with
  | value => exact .self
  | optional h => exact .null
  | _ => cases hn

theorem Node.offersFields_of_nullable {node : Node} {nullable : Bool}
    (h : node.offersFields nullable = true) : node.offersFields false = true := by
  cases node with
  | map entries place => rfl
  | undefined => rfl
  | _ => cases h

namespace Context

variable {ctx : Context α} {shape : Shape α} {target : Target} {site : Site} {node : Node}
  {value : Value α}

/-- What is decoded is null, where the shape accepts it, or is decoded just so if the shape
does not. -/
theorem null_or_decodeAt_withNullable (hreg : ctx.registry = Registry.defaults)
    (h : ctx.decodeAt shape site node = .ok value) :
    (shape.nullable = true ∧ value = .null) ∨
      ctx.decodeAt (shape.withNullable false) site node = .ok value := by
  cases shape with
  | leaf kind nullable =>
    by_cases hf : (Shape.leaf (α := α) kind nullable).foreign = true
    · rw [decodeAt_foreign hreg hf] at h
      cases h
    · have hs : (Shape.leaf (α := α) kind nullable).foreign = false := Bool.not_eq_true _ ▸ hf
      rw [decodeAt_leaf hreg hs] at h
      rcases guardNull_eq_ok h with hnull | ⟨hp, h⟩
      · exact Or.inl hnull
      · right
        have hs' : (Shape.leaf (α := α) kind false).foreign = false :=
          (Shape.foreign_withNullable false (.leaf kind nullable)).trans hs
        rw [Shape.withNullable, decodeAt_leaf hreg hs', guardNull_present hp]
        exact decodeLeaf_ok_of_ok h
  | collection kind element nullable =>
    rw [decodeAt_collection hreg] at h
    rcases guardNull_eq_ok h with hnull | ⟨hp, h⟩
    · exact Or.inl hnull
    · right
      rw [Shape.withNullable, decodeAt_collection hreg, guardNull_present hp]
      exact h
  | map inner nullable =>
    rw [decodeAt_map hreg] at h
    rcases guardNull_eq_ok h with hnull | ⟨hp, h⟩
    · exact Or.inl hnull
    · right
      rw [Shape.withNullable, decodeAt_map hreg, guardNull_present hp]
      exact h
  | record name fields constructor? nullable =>
    rw [decodeAt_record hreg] at h
    cases ho : node.offersFields nullable with
    | false => exact Or.inl (null_of_guardRecord ho h)
    | true =>
      right
      rw [guardRecord_offers ho] at h
      rw [Shape.withNullable, decodeAt_record hreg,
        guardRecord_offers (Node.offersFields_of_nullable ho)]
      exact h

/-- What is decoded as a map that is not to be null holds each key once, with what some node
gives. -/
theorem exists_parts_of_decodeAt_map (hreg : ctx.registry = Registry.defaults) {inner : Shape α}
    (h : ctx.decodeAt (.map inner false) site node = .ok value) :
    ∃ es, value = .map es ∧ (Entries.keys es).Nodup ∧
      ∀ e ∈ es, ∃ site node, ctx.decodeAt inner site node = .ok e.2 := by
  rw [decodeAt_map hreg] at h
  rcases guardNull_eq_ok h with ⟨hn, -⟩ | ⟨-, h⟩
  · cases hn
  · exact exists_parts_of_map h

/-- What is decoded as a shape can be read as every target that suits the shape. -/
theorem readable_of_decodeAt (hreg : ctx.registry = Registry.defaults)
    (hm : shape.Matches target) :
    ∀ (site : Site) (node : Node) (value : Value α),
      ctx.decodeAt shape site node = .ok value → value.ReadableAs target := by
  induction hm with
  | value => exact fun site node value h => .self
  | @leaf kind target hsuits =>
    intro site node value h
    have hs : (Shape.leaf (α := α) kind false).foreign = false := by cases hsuits <;> rfl
    have hv : HasShape (.leaf kind false) value :=
      hasShape_of_decodeLeaf ((decodeAt_leaf_eq_ok_iff hreg hs).mp h)
    exact hv.readableAs hsuits
  | @list kind element target hm ih =>
    intro site node value h
    rw [decodeAt_collection hreg] at h
    rcases guardNull_eq_ok h with ⟨hn, -⟩ | ⟨-, h⟩
    · cases hn
    obtain ⟨values, rfl, hparts⟩ := exists_parts_of_collection h
    have hread : ∀ v ∈ values, v.ReadableAs target := by
      intro v hv
      obtain ⟨site', node', he⟩ := hparts v hv
      exact ih site' node' v he
    cases kind with
    | list => exact .list (Or.inl rfl) hread
    | set =>
      refine .list (Or.inr rfl) fun v hv => hread v ?_
      exact (Value.mem_of_mem_distinctAfter hv).resolve_left List.not_mem_nil
  | @entries inner target hm ih =>
    intro site node value h
    obtain ⟨es, rfl, hkeys, hparts⟩ := exists_parts_of_decodeAt_map hreg h
    refine .entries hkeys fun e he => ?_
    obtain ⟨site', node', hentry⟩ := hparts e he
    exact ih site' node' e.2 hentry
  | @table inner target hm ih =>
    intro site node value h
    obtain ⟨es, rfl, hkeys, hparts⟩ := exists_parts_of_decodeAt_map hreg h
    refine .table hkeys fun e he => ?_
    obtain ⟨site', node', hentry⟩ := hparts e he
    exact ih site' node' e.2 hentry
  | optional hm ih =>
    intro site node value h
    rcases null_or_decodeAt_withNullable hreg h with ⟨-, rfl⟩ | h
    · exact .null
    · exact .optional (ih site node value h)

/-- What a field is bound to can be read as every target that suits the shape of the field. -/
theorem readable_of_bindField (hreg : ctx.registry = Registry.defaults) {field : ShapeField α}
    (hm : field.shape.Matches target)
    (h : ctx.bindField field (ctx.decodeAt field.shape) site node = .ok (some value)) :
    value.ReadableAs target := by
  have hspec := bindField_spec hm.readableAs_null (readable_of_decodeAt hreg hm site) h
  exact hspec.1 value rfl

/-- A bound field is read as a target that suits the fields of its name. -/
theorem exists_get_of_isBound (hreg : ctx.registry = Registry.defaults)
    {fields : List (ShapeField α)} {values : List (Option (Value α))}
    (hvalues : ctx.fieldOutcomes fields site node = values.map .ok) {name : String}
    (hbound : (Arguments.ofBindings fields values).isBound name = true)
    (hm : ∀ field ∈ fields, field.name = name → field.shape.Matches target) :
    ∃ value x, (Arguments.ofBindings fields values).bound.lookup name = some value ∧
      (Arguments.ofBindings fields values).get target name = .ok x ∧ target.Reads value x := by
  obtain ⟨value, hlookup⟩ := Option.isSome_iff_exists.mp hbound
  obtain ⟨b, hb, hname, hv⟩ := Arguments.exists_binding_of_lookup hlookup
  obtain ⟨i, hi⟩ := Outcome.exists_outcome_of_mem_zip hvalues hb
  rw [hv] at hi
  have hfield := hm b.1 (List.of_mem_zip hb).1 hname
  obtain ⟨x, hx, hreads⟩ := readable_of_bindField hreg hfield hi
  refine ⟨value, x, hlookup, ?_, hreads⟩
  have hvalue : (Arguments.ofBindings fields values).value name = .ok value := by
    rw [Arguments.value, Arguments.value?, hlookup]
  simp only [Arguments.get, hvalue, hx, bind, Except.bind]
  rfl

/-- The constructor of a record runs on the arguments made of what the fields give. -/
theorem decodeAt_record_of_construct (hreg : ctx.registry = Registry.defaults)
    {fields : List (ShapeField α)} {values : List (Option (Value α))}
    (hvalues : ctx.fieldOutcomes fields site node = values.map .ok) {nullable : Bool}
    (hoffers : node.offersFields nullable = true) {construct : Constructor α} {content : α}
    (hc : construct (.ofBindings fields values) = .ok content) (name : String) :
    ctx.decodeAt (.record name fields (some construct) nullable) site node =
      .ok (.custom (.born site) content) := by
  rw [decodeAt_record hreg, guardRecord_offers hoffers, hvalues, buildRecord_of_values,
    Shape.instantiate, hc]
  rfl

/-- **Reading a decoded value as a matching type cannot fail.** What is decoded as a shape can
be read as every target that suits the shape, with the elements in order and one entry for
each key. So a constructor that reads a field as such a target gets what the field is bound
to; where several fields have one name the target has to suit them all. -/
theorem decodeAt_extract (hreg : ctx.registry = Registry.defaults) :
    (∀ shape target site node value, shape.Matches target →
      ctx.decodeAt shape site node = .ok value →
      ∃ x, value.extract target = .ok x ∧ target.Reads value x) ∧
    ∀ fields site record values, ctx.fieldOutcomes fields site record = values.map .ok →
      (∀ name construct nullable content, record.offersFields nullable = true →
        construct (Arguments.ofBindings fields values) = .ok content →
        ctx.decodeAt (.record name fields (some construct) nullable) site record =
          .ok (.custom (.born site) content)) ∧
      ∀ name target, (Arguments.ofBindings fields values).isBound name = true →
        (∀ field ∈ fields, field.name = name → field.shape.Matches target) →
        ∃ value x, (Arguments.ofBindings fields values).bound.lookup name = some value ∧
          (Arguments.ofBindings fields values).get target name = .ok x ∧ target.Reads value x := by
  constructor
  · intro shape target site node value hm h
    exact readable_of_decodeAt hreg hm site node value h
  · intro fields site record values hvalues
    constructor
    · intro name construct nullable content hoffers hc
      exact decodeAt_record_of_construct hreg hvalues hoffers hc name
    · intro name target hbound hm
      exact exists_get_of_isBound hreg hvalues hbound hm

/-- Limits by region, of which some may be missing. -/
def limitsShape : Shape Unit := .map (.collection .list (.leaf .int true) false) false

/-- Limits of two regions, one list of them written as a text. -/
def limitsNode : Node :=
  .map
    [("west", .array [.long 3 ⟨.unknown, "<root>.limits.west[0]"⟩,
        .null ⟨.unknown, "<root>.limits.west[1]"⟩] ⟨.unknown, "<root>.limits.west"⟩),
      ("east", .string "1, 2" ⟨.unknown, "<root>.limits.east"⟩)]
    ⟨.unknown, "<root>.limits"⟩

/-- The limits in the order of the node. -/
def limitsValue : Value Unit :=
  .map [("west", .list [.long 3, .null]), ("east", .list [.long 1, .long 2])]

/-- The limits and an owner, if there is one. -/
def limitsFields : List (ShapeField Unit) :=
  [⟨"limits", limitsShape, none⟩, ⟨"owner", .leaf .string true, none⟩]

/-- The arguments that the fields make; there is no owner. -/
def limitsArguments : Arguments Unit :=
  .ofBindings limitsFields [some limitsValue, some .null]

/-- Reads both fields. -/
def readLimits : Constructor Unit := fun args => do
  let _ ← args.get (.table (.list (.optional .int))) "limits"
  let _ ← args.get (.optional .text) "owner"
  return ()

theorem limitsShape_matches : limitsShape.Matches (.table (.list (.optional .int))) :=
  .table (.list (.optional (.leaf .int)))

/-- Limits are read by name, and the owner that is missing as nothing. -/
theorem extract_limits :
    (ofRegistry (α := Unit) .defaults).registry = .defaults ∧
      limitsShape.Matches (.table (.list (.optional .int))) ∧
      (ofRegistry .defaults).decodeAt limitsShape [] limitsNode = .ok limitsValue ∧
      (∃ x, limitsValue.extract (.table (.list (.optional .int))) = .ok x ∧
        Target.Reads (.table (.list (.optional .int))) limitsValue x) ∧
      readLimits limitsArguments = .ok () ∧
      (ofRegistry .defaults).decodeAt (.record "Limits" limitsFields (some readLimits) false) []
          (.map [("limits", limitsNode)] ⟨.unknown, "<root>"⟩) = .ok (.custom (.born []) ()) ∧
      limitsArguments.isBound "owner" = true ∧
      ∃ value x, limitsArguments.bound.lookup "owner" = some value ∧
        limitsArguments.get (.optional .text) "owner" = .ok x ∧
        Target.Reads (.optional .text) value x := by
  have hreg : (ofRegistry (α := Unit) .defaults).registry = .defaults := rfl
  have hdecoded : (ofRegistry .defaults).decodeAt limitsShape [] limitsNode =
    .ok limitsValue := rfl
  have hfields : (ofRegistry .defaults).fieldOutcomes limitsFields []
      (.map [("limits", limitsNode)] ⟨.unknown, "<root>"⟩) =
    [some limitsValue, some .null].map .ok := rfl
  have hread : readLimits limitsArguments = .ok () := rfl
  have hbound : limitsArguments.isBound "owner" = true := rfl
  have hsuits : ∀ field ∈ limitsFields, field.name = "owner" →
      field.shape.Matches (.optional .text) := by
    intro field hf hname
    simp only [limitsFields, List.mem_cons, List.not_mem_nil, or_false] at hf
    rcases hf with rfl | rfl
    · simp at hname
    · exact .optional (.leaf .string)
  obtain ⟨hextract, hrecord⟩ := decodeAt_extract hreg
  obtain ⟨hconstruct, hget⟩ := hrecord _ _ _ _ hfields
  exact ⟨hreg, limitsShape_matches, hdecoded,
    hextract _ _ _ _ _ limitsShape_matches hdecoded, hread,
    hconstruct "Limits" readLimits false () rfl hread, hbound,
    hget "owner" (.optional .text) hbound hsuits⟩

end Context
end TypedConfig
