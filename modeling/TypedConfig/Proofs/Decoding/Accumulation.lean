/-
# A failed decoding reports everything once

With the built-in decoders a decoding that fails ends with exactly one failure,
and the failure is found by the rules of `Refusal`. A rule speaks of one node: it
either names what is wrong with the node itself, or gathers what its parts report
when each of them is decoded by itself, in order and unchanged. So nothing that is
wrong at any depth is dropped or told twice (`decodeAt_error_iff_refusal`).

Key definitions: `Refusal`.
Key theorems: `Refusal.decodeAt_eq`, `Refusal.exists_refusal`,
`Context.decodeAt_error_iff_refusal`.
-/
import TypedConfig.Proofs.Decoding.Builtin
import TypedConfig.Proofs.Decoding.Leaf

namespace TypedConfig

variable {α : Type}

open Context in
/-- The failure with which decoding a node as a shape ends. The parts of the node are
decoded by themselves, each at its own site. -/
inductive Refusal (ctx : Context α) (site : Site) : Shape α → Node → Failure → Prop
  /-- Only decoders of the application know the shape. -/
  | foreign {shape : Shape α} {node : Node} (hs : shape.foreign = true) :
      Refusal ctx site shape node (.noDecoder shape.text)
  /-- Nothing is there. -/
  | missing {shape : Shape α} (hs : shape.foreign = false) (hr : shape.isRecord = false)
      (hn : shape.nullable = false) : Refusal ctx site shape .undefined .missingValue
  /-- An explicit null is not acceptable. -/
  | null {shape : Shape α} {place : Place} (hs : shape.foreign = false)
      (hn : shape.nullable = false) :
      Refusal ctx site shape (.null place) (.nullNotAllowed place.path place.position)
  /-- The node writes no value of the leaf. -/
  | leaf {kind : Leaf} {nullable : Bool} {node : Node} {failure : Failure}
      (hs : (Shape.leaf (α := α) kind nullable).foreign = false) (hp : node.isPresent = true)
      (h : decodeLeaf (α := α) kind (Shape.leaf (α := α) kind nullable).text node =
        .fail failure) :
      Refusal ctx site (.leaf kind nullable) node failure
  /-- Only decoders of the application know the elements. -/
  | foreignElements {kind : Collection} {element : Shape α} {nullable : Bool} {node : Node}
      (hp : node.isPresent = true) (he : element.foreign = true) :
      Refusal ctx site (.collection kind element nullable) node (.noDecoder element.text)
  /-- The node has no elements to offer. -/
  | noElements {kind : Collection} {element : Shape α} {nullable : Bool} {node : Node}
      (hp : node.isPresent = true) (he : element.foreign = false)
      (h : ctx.elements? node = none) :
      Refusal ctx site (.collection kind element nullable) node
        (.notACollection kind.name node.typeName node.pathOrRoot node.position)
  /-- Elements fail: their failures one after another, in the order of the elements. -/
  | elements {kind : Collection} {element : Shape α} {nullable : Bool} {node : Node}
      {nodes : List Node} {children : Failures} (he : element.foreign = false)
      (hn : ctx.elements? node = some nodes)
      (h : children.toList =
        (nodes.mapIdx fun i n => (ctx.decodeAt element (i :: site) n).failures).flatten) :
      Refusal ctx site (.collection kind element nullable) node
        (.elements kind.name (node.path?.getD "") children)
  /-- Only decoders of the application know the values. -/
  | foreignValues {value : Shape α} {nullable : Bool} {entries : List (String × Node)}
      {place : Place} (hv : value.foreign = true) :
      Refusal ctx site (.map value nullable) (.map entries place) (.noDecoder value.text)
  /-- The node is no map. -/
  | noEntries {value : Shape α} {nullable : Bool} {node : Node} (hp : node.isPresent = true)
      (h : ∀ entries place, node ≠ .map entries place) :
      Refusal ctx site (.map value nullable) node
        (.notACollection "Map" node.typeName node.pathOrRoot node.position)
  /-- Values fail: the failures of each that does under its key, in the order of the
  entries. -/
  | values {value : Shape α} {nullable : Bool} {entries : List (String × Node)} {place : Place}
      {children : Failures} (hv : value.foreign = false)
      (h : children.toList = (entries.mapIdx fun i e =>
        (ctx.decodeAt value (i :: site) (ctx.preprocess e.2)).failuresUnder e.1).flatten) :
      Refusal ctx site (.map value nullable) (.map entries place)
        (.elements "Map" place.path children)
  /-- The node holds no fields. -/
  | noFields {name : String} {fields : List (ShapeField α)}
      {constructor? : Option (Constructor α)} {nullable : Bool} {node : Node}
      (hp : node.isPresent = true) (h : ∀ entries place, node ≠ .map entries place) :
      Refusal ctx site (.record name fields constructor? nullable) node
        (.wrongKind node.typeName node.pathOrRoot node.position
          (Shape.record name fields constructor? nullable).text)
  /-- Fields fail: the failures of each that does under its name, in declared order. -/
  | fields {name : String} {fields : List (ShapeField α)}
      {constructor? : Option (Constructor α)} {nullable : Bool} {node : Node}
      {children : Failures} (ho : node.offersFields nullable = true)
      (h : children.toList = fieldFailures fields (ctx.fieldOutcomes fields site node)) :
      Refusal ctx site (.record name fields constructor? nullable) node
        (.record name node.position node.pathOrRoot children)
  /-- No field fails, but the constructor refuses what they give. -/
  | construction {name : String} {fields : List (ShapeField α)} {construct : Constructor α}
      {nullable : Bool} {node : Node} {values : List (Option (Value α))}
      {error : ConstructError} (ho : node.offersFields nullable = true)
      (h : ctx.fieldOutcomes fields site node = values.map .ok)
      (he : construct (.ofBindings fields values) = .error error) :
      Refusal ctx site (.record name fields (some construct) nullable) node
        (.constructorRefused name (Arguments.ofBindings fields values).text error.message)

namespace Refusal

open Context

variable {ctx : Context α} {shape : Shape α} {site : Site} {node : Node}

/-! ### What the rules find is what decoding reports -/

theorem present_of_elements {nodes : List Node} (h : ctx.elements? node = some nodes) :
    node.isPresent = true := by
  cases node <;> first | rfl | simp [elements?] at h

theorem flatMap_failures_mapIdx {β γ : Type} (parts : List β) (outcome : Nat → β → Outcome γ) :
    (parts.mapIdx outcome).flatMap Outcome.failures =
      (parts.mapIdx fun i part => (outcome i part).failures).flatten := by
  rw [List.flatMap_def, List.mapIdx_eq_zipIdx_map, List.mapIdx_eq_zipIdx_map, List.map_map]
  rfl

/-- What a rule finds is the outcome of the decoding. -/
theorem decodeAt_eq (hreg : ctx.registry = Registry.defaults) {failure : Failure}
    (h : Refusal ctx site shape node failure) :
    ctx.decodeAt shape site node = .fail failure := by
  cases h with
  | foreign hs => exact decodeAt_foreign hreg hs site node
  | missing hs hr hn => rw [decodeAt_undefined hreg hs hr, if_neg (Bool.eq_false_iff.mp hn)]
  | null hs hn =>
    rw [decodeAt_null hreg hs, if_neg (Bool.eq_false_iff.mp hn)]
    rfl
  | leaf hs hp h => rw [decodeAt_leaf hreg hs, guardNull_present hp, h]
  | foreignElements hp he =>
    rw [decodeAt_collection hreg, guardNull_present hp, decodeCollection_foreign hreg _ he]
  | noElements hp he h =>
    rw [decodeAt_collection hreg, guardNull_present hp, decodeCollection_builtin hreg _ he, h]
    rfl
  | @elements kind element nullable _ nodes children he hn h =>
    rw [decodeAt_collection hreg, guardNull_present (present_of_elements hn),
      decodeCollection_builtin hreg _ he, hn]
    refine Outcome.gather_eq_error_iff.mpr ⟨children, ?_, rfl⟩
    rw [h, flatMap_failures_mapIdx]
  | foreignValues hv =>
    rw [decodeAt_map hreg, guardNull_present rfl, decodeMap_foreign hreg hv]
  | noEntries hp h =>
    rw [decodeAt_map hreg, guardNull_present hp, decodeMap_no_map _ _ _ h]
    rfl
  | @values value nullable entries place children hv h =>
    rw [decodeAt_map hreg, guardNull_present rfl, decodeMap_builtin hreg hv]
    refine Outcome.gather_eq_error_iff.mpr ⟨children, ?_, rfl⟩
    rw [h, flatMap_failures_mapIdx]
    simp only [decodeEntry, Outcome.failures_map_wrap_field]
  | noFields hp h =>
    rw [decodeAt_record hreg, guardRecord_no_map _ hp h]
    rfl
  | fields ho h =>
    rw [decodeAt_record hreg, guardRecord_offers ho, buildRecord_of_failures h]
  | construction ho h he =>
    rw [decodeAt_record hreg, guardRecord_offers ho, h, buildRecord_of_values]
    simp only [Shape.instantiate, he]
    rfl

/-! ### What decoding reports is found by a rule -/

theorem exists_refusal_collection (hreg : ctx.registry = Registry.defaults) {kind : Collection}
    {element : Shape α} {nullable : Bool} {failures : Failures} (hp : node.isPresent = true)
    (h : ctx.decodeAt (.collection kind element nullable) site node = .error failures) :
    ∃ failure, failures = .one failure ∧
      Refusal ctx site (.collection kind element nullable) node failure := by
  rw [decodeAt_collection hreg, guardNull_present hp] at h
  cases he : element.foreign with
  | true =>
    rw [decodeCollection_foreign hreg _ he] at h
    exact ⟨_, (Except.error.inj h).symm, .foreignElements hp he⟩
  | false =>
    rw [decodeCollection_builtin hreg _ he] at h
    cases hn : ctx.elements? node with
    | none =>
      rw [hn] at h
      exact ⟨_, (Except.error.inj h).symm, .noElements hp he hn⟩
    | some nodes =>
      rw [hn] at h
      obtain ⟨children, hc, rfl⟩ := Outcome.gather_eq_error_iff.mp h
      rw [flatMap_failures_mapIdx] at hc
      exact ⟨_, rfl, .elements he hn hc⟩

theorem exists_refusal_map (hreg : ctx.registry = Registry.defaults) {value : Shape α}
    {nullable : Bool} {failures : Failures} (hp : node.isPresent = true)
    (h : ctx.decodeAt (.map value nullable) site node = .error failures) :
    ∃ failure, failures = .one failure ∧
      Refusal ctx site (.map value nullable) node failure := by
  rw [decodeAt_map hreg, guardNull_present hp] at h
  rcases node.map_or_not with ⟨entries, place, rfl⟩ | hno
  · cases hv : value.foreign with
    | true =>
      rw [decodeMap_foreign hreg hv] at h
      exact ⟨_, (Except.error.inj h).symm, .foreignValues hv⟩
    | false =>
      rw [decodeMap_builtin hreg hv] at h
      obtain ⟨children, hc, rfl⟩ := Outcome.gather_eq_error_iff.mp h
      rw [flatMap_failures_mapIdx] at hc
      simp only [decodeEntry, Outcome.failures_map_wrap_field] at hc
      exact ⟨_, rfl, .values hv hc⟩
  · rw [decodeMap_no_map _ _ _ hno] at h
    exact ⟨_, (Except.error.inj h).symm, .noEntries hp hno⟩

theorem exists_refusal_record (hreg : ctx.registry = Registry.defaults) {name : String}
    {fields : List (ShapeField α)} {constructor? : Option (Constructor α)} {nullable : Bool}
    {failures : Failures} (ho : node.offersFields nullable = true)
    (h : ctx.decodeAt (.record name fields constructor? nullable) site node = .error failures) :
    ∃ failure, failures = .one failure ∧
      Refusal ctx site (.record name fields constructor? nullable) node failure := by
  rw [decodeAt_record hreg, guardRecord_offers ho] at h
  rcases values_or_failures (ctx.length_fieldOutcomes fields site node) with
    ⟨values, hv⟩ | ⟨children, hc⟩
  · rw [hv, buildRecord_of_values] at h
    cases constructor? with
    | none => simp [Shape.instantiate] at h
    | some construct =>
      cases he : construct (.ofBindings fields values) with
      | ok content => simp [Shape.instantiate, he, Except.map] at h
      | error error =>
        simp only [Shape.instantiate, he, Except.map] at h
        exact ⟨_, (Except.error.inj h).symm, .construction ho hv he⟩
  · rw [buildRecord_of_failures hc] at h
    exact ⟨_, (Except.error.inj h).symm, .fields ho hc⟩

/-- Whatever a decoding reports is one failure, found by a rule. -/
theorem exists_refusal (hreg : ctx.registry = Registry.defaults) {failures : Failures}
    (h : ctx.decodeAt shape site node = .error failures) :
    ∃ failure, failures = .one failure ∧ Refusal ctx site shape node failure := by
  cases hs : shape.foreign with
  | true =>
    rw [decodeAt_foreign hreg hs] at h
    exact ⟨_, (Except.error.inj h).symm, .foreign hs⟩
  | false =>
    -- an absent node counts as one without fields for a record, and as nothing for others
    rcases node.absent_or_present with rfl | ⟨place, rfl⟩ | hp
    · cases hr : shape.isRecord with
      | true =>
        obtain ⟨name, fields, constructor?, nullable, rfl⟩ := Shape.isRecord_eq_true_iff.mp hr
        cases nullable with
        | true => simp [decodeAt_record hreg, guardRecord, Shape.nullable] at h
        | false => exact exists_refusal_record hreg rfl h
      | false =>
        rw [decodeAt_undefined hreg hs hr] at h
        cases hn : shape.nullable with
        | true => simp [hn] at h
        | false =>
          rw [hn] at h
          exact ⟨_, (Except.error.inj h).symm, .missing hs hr hn⟩
    · rw [decodeAt_null hreg hs] at h
      cases hn : shape.nullable with
      | true => simp [hn] at h
      | false =>
        rw [hn] at h
        exact ⟨_, (Except.error.inj h).symm, .null hs hn⟩
    · cases shape with
      | leaf kind nullable =>
        rw [decodeAt_leaf hreg hs, guardNull_present hp] at h
        obtain ⟨failure, rfl, -⟩ := decodeLeaf_fails h
        exact ⟨failure, rfl, .leaf hs hp h⟩
      | collection kind element nullable => exact exists_refusal_collection hreg hp h
      | map value nullable => exact exists_refusal_map hreg hp h
      | record name fields constructor? nullable =>
        rcases node.map_or_not with ⟨entries, place, rfl⟩ | hno
        · exact exists_refusal_record hreg rfl h
        · rw [decodeAt_record hreg, guardRecord_no_map _ hp hno] at h
          exact ⟨_, (Except.error.inj h).symm, .noFields hp hno⟩

/-- A record is refused by its constructor only if no field failed. -/
theorem constructorRefused_iff {name : String} {fields : List (ShapeField α)}
    {constructor? : Option (Constructor α)} {nullable : Bool} {arguments reason : String} :
    Refusal ctx site (.record name fields constructor? nullable) node
        (.constructorRefused name arguments reason) ↔
      node.offersFields nullable = true ∧ ∃ construct values error,
        constructor? = some construct ∧ ctx.fieldOutcomes fields site node = values.map .ok ∧
          construct (.ofBindings fields values) = .error error ∧
          arguments = (Arguments.ofBindings fields values).text ∧ reason = error.message := by
  constructor
  · intro h
    cases h with
    | construction ho hv he => exact ⟨ho, _, _, _, rfl, hv, he, rfl, rfl⟩
  · rintro ⟨ho, construct, values, error, rfl, hv, he, rfl, rfl⟩
    exact .construction ho hv he

end Refusal

namespace Context

variable {ctx : Context α}

/-- **A failed decoding reports everything once.** At any site, and so at the root, a
decoding fails exactly with the one failure that the rules of `Refusal` find; and the
constructor of a record is what refuses it exactly if every field gave something that the
constructor then refused. -/
theorem decodeAt_error_iff_refusal (hreg : ctx.registry = Registry.defaults) (shape : Shape α)
    (site : Site) (node : Node) :
    (∀ failures, ctx.decodeAt shape site node = .error failures ↔
      ∃ failure, failures = .one failure ∧ Refusal ctx site shape node failure) ∧
    ∀ name fields constructor? nullable arguments reason,
      shape = .record name fields constructor? nullable →
      (ctx.decodeAt shape site node = .fail (.constructorRefused name arguments reason) ↔
        node.offersFields nullable = true ∧ ∃ construct values error,
          constructor? = some construct ∧ ctx.fieldOutcomes fields site node = values.map .ok ∧
            construct (.ofBindings fields values) = .error error ∧
            arguments = (Arguments.ofBindings fields values).text ∧
            reason = error.message) := by
  have hiff : ∀ failures, ctx.decodeAt shape site node = .error failures ↔
      ∃ failure, failures = .one failure ∧ Refusal ctx site shape node failure := by
    intro failures
    constructor
    · exact Refusal.exists_refusal hreg
    · rintro ⟨failure, rfl, h⟩
      exact Refusal.decodeAt_eq hreg h
  refine ⟨hiff, ?_⟩
  rintro name fields constructor? nullable arguments reason rfl
  rw [← Refusal.constructorRefused_iff, Outcome.fail, hiff]
  constructor
  · rintro ⟨failure, he, h⟩
    cases he
    exact h
  · exact fun h => ⟨_, rfl, h⟩

/-- A record of a list of numbers and a name. -/
def plainShape : Shape Unit :=
  .record "Plain"
    [⟨"sizes", .collection .list (.leaf .long false) false, none⟩,
      ⟨"name", .leaf .string false, none⟩] none false

/-- A flag stands among the numbers, and there is no name. -/
def plainNode : Node :=
  .map [("sizes", .array
    [.boolean true ⟨.unknown, "<root>.sizes[0]"⟩, .long 1 ⟨.unknown, "<root>.sizes[1]"⟩]
    ⟨.unknown, "<root>.sizes"⟩)] ⟨.unknown, "<root>"⟩

/-- Both are told, each under its field. -/
def plainFailure : Failure :=
  .record "Plain" .unknown "<root>"
    ⟨.field "sizes" (.one (.elements "List" "<root>.sizes"
      (.one (.wrongKind "Boolean" "<root>.sizes[0]" .unknown "Long")))),
      [.field "name" (.one .missingValue)]⟩

theorem refusal_plainFailure :
    (ofRegistry (α := Unit) .defaults).registry = .defaults ∧
      Refusal (ofRegistry .defaults) [] plainShape plainNode plainFailure := by
  have hreg : (ofRegistry (α := Unit) .defaults).registry = .defaults := rfl
  obtain ⟨failure, he, h⟩ :=
    ((decodeAt_error_iff_refusal hreg plainShape [] plainNode).1 (.one plainFailure)).mp rfl
  cases he
  exact ⟨hreg, h⟩

end Context
end TypedConfig
