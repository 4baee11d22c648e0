/-
# Decoding with the built-in decoders

With the built-in decoders alone a decoding is a recursion on the shape: what
decoders of the application might ask for never comes up. Each kind of shape has
one equation, in which the parts are decoded by `Context.decodeAt`, the decoding
as it goes on at the site of a part. In other registries the equation of a shape
holds as long as a built-in decoder is picked for it (`decodeAt_leaf_of_builtin`
and so on). A record is made of what its fields give one by one: of their values
(`buildRecord_of_values`) or, if some fail, of their failures
(`buildRecord_of_failures`).

Key definitions: `Context.decodeAt`, `Context.fieldOutcomes`.
Key theorems: `Registry.resolve_defaults`, `Context.decodeAt_leaf`,
`Context.decodeAt_collection`, `Context.decodeAt_map`, `Context.decodeAt_record`,
`Context.values_or_failures`.
-/
import TypedConfig.Decoding
import TypedConfig.Proofs.Arguments
import TypedConfig.Proofs.Node
import TypedConfig.Proofs.Outcome
import TypedConfig.Proofs.Shape

namespace TypedConfig

variable {α : Type}

/-- The built-in decoders know every shape but the application's own types. -/
theorem Registry.resolve_defaults (shape : Shape α) :
    (shape.foreign = true → Registry.defaults.resolve shape = .fail (.noDecoder shape.text)) ∧
      (shape.foreign = false →
        ∃ kind, Registry.defaults.resolve shape = .ok (.builtin kind)) := by
  cases shape with
  | leaf kind nullable =>
    cases kind with
    | named name => exact ⟨fun _ => rfl, fun h => absurd h (by simp [Shape.foreign])⟩
    | _ => exact ⟨fun h => absurd h (by simp [Shape.foreign]), fun _ => ⟨_, rfl⟩⟩
  | collection kind element nullable =>
    cases kind <;> exact ⟨fun h => absurd h (by simp [Shape.foreign]), fun _ => ⟨_, rfl⟩⟩
  | map value nullable =>
    exact ⟨fun h => absurd h (by simp [Shape.foreign]), fun _ => ⟨_, rfl⟩⟩
  | record name fields constructor? nullable =>
    exact ⟨fun h => absurd h (by simp [Shape.foreign]), fun _ => ⟨_, rfl⟩⟩

/-- Whether there is a node that is not null. -/
def Node.isPresent (node : Node) : Bool := node.isDefined && !node.isNull

theorem Node.absent_or_present (node : Node) :
    node = .undefined ∨ (∃ place, node = .null place) ∨ node.isPresent = true := by
  cases node with
  | undefined => exact Or.inl rfl
  | null place => exact Or.inr (Or.inl ⟨place, rfl⟩)
  | _ => exact Or.inr (Or.inr rfl)

theorem Node.map_or_not (node : Node) :
    (∃ entries place, node = .map entries place) ∨ ∀ entries place, node ≠ .map entries place := by
  cases node with
  | map entries place => exact Or.inl ⟨entries, place, rfl⟩
  | _ => exact Or.inr fun _ _ => Node.noConfusion

/-- Whether the fields of a record are looked for in the node: in a map, and in an absent
node unless absence makes the record null. -/
def Node.offersFields (nullable : Bool) : Node → Bool
  | .map .. => true
  | .undefined => !nullable
  | _ => false

namespace Context

variable {ctx : Context α}

/-- Decodes a part that is met at `site` in the course of a decoding; the decoding itself
starts at the empty site. -/
def decodeAt (ctx : Context α) (shape : Shape α) (site : Site) (node : Node) :
    Outcome (Value α) :=
  ctx.decodeWithin ctx.delegationLimit shape site node

theorem decode_eq_decodeAt (ctx : Context α) (node : Node) (shape : Shape α) :
    ctx.decode node shape = ctx.decodeAt shape [] node := rfl

theorem preprocess_eq_self (hpre : ctx.preprocessors = []) (node : Node) :
    ctx.preprocess node = node := by
  rw [preprocess, hpre]
  rfl

/-- The node of a field is a child of the node of its record, or nothing. -/
theorem resolveField_undefined_or_child (root : Node) (name : String) :
    ctx.resolveField root name = .undefined ∨ ctx.resolveField root name ∈ root.children := by
  rw [resolveField]
  cases hf : (ctx.spellings.map fun spelling => root.atKey (spelling name)).find?
      (·.isDefined) with
  | none => exact Or.inl rfl
  | some child =>
    obtain ⟨spelling, -, rfl⟩ := List.mem_map.mp (List.mem_of_find?_eq_some hf)
    rw [Option.getD_some]
    cases root with
    | map entries place =>
      cases hl : entries.lookup (spelling name) with
      | none => exact Or.inl (by rw [Node.atKey, hl]; rfl)
      | some child =>
        obtain ⟨before, after, rfl, -⟩ := List.lookup_eq_some_iff.mp hl
        refine Or.inr (List.mem_map.mpr ⟨(spelling name, child), by simp, ?_⟩)
        rw [Node.atKey, hl]
        rfl
    | _ => exact Or.inl rfl

/-- What each field of a record gives when it is bound by itself, in declared order. -/
def fieldOutcomes (ctx : Context α) (fields : List (ShapeField α)) (site : Site) (node : Node) :
    List (Outcome (Option (Value α))) :=
  fields.mapIdx fun i field => ctx.bindField field (ctx.decodeAt field.shape) (i :: site) node

theorem length_fieldOutcomes (fields : List (ShapeField α)) (site : Site) (node : Node) :
    fields.length = (ctx.fieldOutcomes fields site node).length := by
  rw [fieldOutcomes, List.length_mapIdx]

/-- What a field gives, under the name of the field in the result as in a failure. -/
def nameOutcome (field : ShapeField α) (o : Outcome (Option (Value α))) :
    Outcome (Option (String × Value α)) :=
  (o.wrap (.field field.name)).map fun value? => value?.map (field.name, ·)

theorem exists_delegate_within (ctx : Context α) (depth : Nat) :
    ∃ delegate, ctx.decodeWithin depth = ctx.decodeWith delegate := by
  cases depth with
  | zero => exact ⟨_, rfl⟩
  | succ depth => exact ⟨_, rfl⟩

theorem exists_delegate (ctx : Context α) :
    ∃ delegate, ctx.decodeAt = ctx.decodeWith delegate :=
  ctx.exists_delegate_within ctx.delegationLimit

theorem decodeFields_eq (ctx : Context α) (delegate : Delegate α) (site : Site) (node : Node) :
    ∀ (fields : List (ShapeField α)) (start : Nat),
      ctx.decodeFields delegate fields start site node =
        List.zipWith nameOutcome fields (fields.mapIdx fun i field =>
          ctx.bindField field (ctx.decodeWith delegate field.shape) ((i + start) :: site) node)
  | [], _ => by simp [decodeFields]
  | ⟨name, shape, default?⟩ :: fields, start => by
    rw [decodeFields, decodeFields_eq ctx delegate site node fields (start + 1), List.mapIdx_cons,
      List.zipWith_cons_cons]
    simp only [Nat.zero_add, Nat.add_assoc, Nat.add_comm 1]
    rfl

/-- What the decoder that is picked for the shape makes of a node. -/
theorem decodeAt_eq_dispatch (ctx : Context α) (shape : Shape α) (site : Site) (node : Node) :
    ∃ delegate builtin,
      ctx.decodeAt shape site node = ctx.dispatch delegate shape site node builtin := by
  obtain ⟨delegate, hd⟩ := ctx.exists_delegate
  rw [hd]
  cases shape <;> exact ⟨delegate, _, by rw [decodeWith]⟩

theorem dispatch_of_builtin {shape : Shape α} {kind : Builtin}
    (h : ctx.registry.resolve shape = .ok (.builtin kind)) (delegate : Delegate α) (site : Site)
    (node : Node) (builtin : Outcome (Value α)) :
    ctx.dispatch delegate shape site node builtin = builtin := by
  rw [dispatch, h]

theorem guardNull_present {node : Node} (h : node.isPresent = true) (nullable : Bool)
    (decoded : Outcome (Value α)) : guardNull nullable node decoded = decoded := by
  cases node with
  | undefined => simp [Node.isPresent, Node.isDefined] at h
  | null place => simp [Node.isPresent, Node.isNull] at h
  | _ => rfl

theorem bindField_present {field : ShapeField α} {record child : Node}
    (hc : ctx.preprocess (ctx.resolveField record field.name) = child)
    (hp : child.isPresent = true) (decodeValue : Site → Node → Outcome (Value α)) (site : Site) :
    ctx.bindField field decodeValue site record = (decodeValue site child).map some := by
  rw [bindField, hc]
  cases child with
  | undefined => simp [Node.isPresent, Node.isDefined] at hp
  | null place => simp [Node.isPresent, Node.isNull] at hp
  | _ => rfl

/-- A guard lets null through only where it is acceptable. -/
theorem guardNull_eq_ok {nullable : Bool} {node : Node} {decoded : Outcome (Value α)}
    {value : Value α} (h : guardNull nullable node decoded = .ok value) :
    (nullable = true ∧ value = .null) ∨ (node.isPresent = true ∧ decoded = .ok value) := by
  rcases node.absent_or_present with rfl | ⟨place, rfl⟩ | hp
  · cases nullable with
    | true => exact Or.inl ⟨rfl, (Except.ok.inj h).symm⟩
    | false => cases h
  · cases nullable with
    | true => exact Or.inl ⟨rfl, (Except.ok.inj h).symm⟩
    | false => cases h
  · rw [guardNull_present hp] at h
    exact Or.inr ⟨hp, h⟩

theorem guardRecord_offers {name : String} {fields : List (ShapeField α)}
    {constructor? : Option (Constructor α)} {nullable : Bool} {node : Node}
    (h : node.offersFields nullable = true) (decoded : Outcome (Value α)) :
    guardRecord (.record name fields constructor? nullable) node decoded = decoded := by
  cases node with
  | map entries place => rfl
  | undefined =>
    have hn : nullable = false := by simpa [Node.offersFields] using h
    rw [hn]
    rfl
  | _ => simp [Node.offersFields] at h

theorem guardRecord_no_map (shape : Shape α) {node : Node} (hp : node.isPresent = true)
    (h : ∀ entries place, node ≠ .map entries place) (decoded : Outcome (Value α)) :
    guardRecord shape node decoded = .fail (.ofKind node shape.text) := by
  cases node with
  | map entries place => exact absurd rfl (h entries place)
  | undefined => simp [Node.isPresent, Node.isDefined] at hp
  | null place => simp [Node.isPresent, Node.isNull] at hp
  | _ => rfl

/-! ### The decoder that is picked -/

/-- Where no decoder is picked, decoding fails for that. -/
theorem decodeAt_of_error {shape : Shape α} {failures : Failures}
    (h : ctx.registry.resolve shape = .error failures) (site : Site) (node : Node) :
    ctx.decodeAt shape site node = .error failures := by
  obtain ⟨delegate, builtin, he⟩ := ctx.decodeAt_eq_dispatch shape site node
  rw [he, dispatch, h]

/-- A decoder of the application that leaves null to the decoding sees present nodes only. -/
theorem decodeAt_of_guarded {shape : Shape α} {decoder : CustomDecoder α}
    (h : ctx.registry.resolve shape = .ok (.custom decoder)) (hg : decoder.guardsNull = true)
    (site : Site) (node : Node) :
    ∃ decoded, ctx.decodeAt shape site node = guardNull shape.nullable node decoded := by
  obtain ⟨delegate, builtin, he⟩ := ctx.decodeAt_eq_dispatch shape site node
  refine ⟨decoder.run (ctx.engine delegate) site node shape, ?_⟩
  rw [he, dispatch, h]
  simp only [hg, if_true]

theorem decodeAt_leaf_of_builtin {kind : Leaf} {nullable : Bool} {builtin : Builtin}
    (h : ctx.registry.resolve (.leaf kind nullable) = .ok (.builtin builtin)) (site : Site)
    (node : Node) :
    ctx.decodeAt (.leaf kind nullable) site node =
      guardNull nullable node
        (decodeLeaf kind (Shape.leaf (α := α) kind nullable).text node) := by
  obtain ⟨delegate, hd⟩ := ctx.exists_delegate
  rw [hd, decodeWith, dispatch_of_builtin h]

theorem decodeAt_collection_of_builtin {kind : Collection} {element : Shape α} {nullable : Bool}
    {builtin : Builtin}
    (h : ctx.registry.resolve (.collection kind element nullable) = .ok (.builtin builtin))
    (site : Site) (node : Node) :
    ctx.decodeAt (.collection kind element nullable) site node =
      guardNull nullable node
        (ctx.decodeCollection kind element (ctx.decodeAt element) site node) := by
  obtain ⟨delegate, hd⟩ := ctx.exists_delegate
  rw [hd, decodeWith, dispatch_of_builtin h]

theorem decodeAt_map_of_builtin {value : Shape α} {nullable : Bool} {builtin : Builtin}
    (h : ctx.registry.resolve (.map value nullable) = .ok (.builtin builtin)) (site : Site)
    (node : Node) :
    ctx.decodeAt (.map value nullable) site node =
      guardNull nullable node (ctx.decodeMap value (ctx.decodeAt value) site node) := by
  obtain ⟨delegate, hd⟩ := ctx.exists_delegate
  rw [hd, decodeWith, dispatch_of_builtin h]

theorem decodeAt_record_of_builtin {name : String} {fields : List (ShapeField α)}
    {constructor? : Option (Constructor α)} {nullable : Bool} {builtin : Builtin}
    (h : ctx.registry.resolve (.record name fields constructor? nullable) = .ok (.builtin builtin))
    (site : Site) (node : Node) :
    ctx.decodeAt (.record name fields constructor? nullable) site node =
      guardRecord (.record name fields constructor? nullable) node
        (buildRecord name fields constructor? site node
          (List.zipWith nameOutcome fields (ctx.fieldOutcomes fields site node))) := by
  obtain ⟨delegate, hd⟩ := ctx.exists_delegate
  rw [fieldOutcomes, hd, decodeWith, dispatch_of_builtin h, decodeFields_eq]
  simp only [Nat.add_zero]

/-! ### One equation for each kind of shape -/

theorem resolve_foreign (h : ctx.registry = Registry.defaults) {shape : Shape α}
    (hs : shape.foreign = true) : ctx.registry.resolve shape = .fail (.noDecoder shape.text) := by
  rw [h]
  exact (Registry.resolve_defaults shape).1 hs

theorem resolve_builtin (h : ctx.registry = Registry.defaults) {shape : Shape α}
    (hs : shape.foreign = false) : ∃ kind, ctx.registry.resolve shape = .ok (.builtin kind) := by
  rw [h]
  exact (Registry.resolve_defaults shape).2 hs

theorem decodeAt_foreign (h : ctx.registry = Registry.defaults) {shape : Shape α}
    (hs : shape.foreign = true) (site : Site) (node : Node) :
    ctx.decodeAt shape site node = .fail (.noDecoder shape.text) :=
  decodeAt_of_error (resolve_foreign h hs) site node

theorem decodeAt_leaf (h : ctx.registry = Registry.defaults) {kind : Leaf} {nullable : Bool}
    (hs : (Shape.leaf (α := α) kind nullable).foreign = false) (site : Site) (node : Node) :
    ctx.decodeAt (.leaf kind nullable) site node =
      guardNull nullable node
        (decodeLeaf kind (Shape.leaf (α := α) kind nullable).text node) := by
  obtain ⟨builtin, hb⟩ := resolve_builtin h hs
  exact decodeAt_leaf_of_builtin hb site node

/-- A leaf that does not accept null is decoded as it is read. -/
theorem decodeAt_leaf_eq_ok_iff (h : ctx.registry = Registry.defaults) {kind : Leaf}
    (hs : (Shape.leaf (α := α) kind false).foreign = false) {site : Site} {node : Node}
    {value : Value α} :
    ctx.decodeAt (.leaf kind false) site node = .ok value ↔
      decodeLeaf kind (Shape.leaf (α := α) kind false).text node = .ok value := by
  rw [decodeAt_leaf h hs]
  constructor
  · intro h
    rcases guardNull_eq_ok h with ⟨hn, -⟩ | ⟨-, h⟩
    · cases hn
    · exact h
  · intro h
    rcases node.absent_or_present with rfl | ⟨place, rfl⟩ | hp
    · cases kind <;> cases h
    · cases kind <;> cases h
    · rw [guardNull_present hp]
      exact h

theorem decodeAt_collection (h : ctx.registry = Registry.defaults) (kind : Collection)
    (element : Shape α) (nullable : Bool) (site : Site) (node : Node) :
    ctx.decodeAt (.collection kind element nullable) site node =
      guardNull nullable node
        (ctx.decodeCollection kind element (ctx.decodeAt element) site node) := by
  have hs : (Shape.collection kind element nullable).foreign = false := rfl
  obtain ⟨builtin, hb⟩ := resolve_builtin h hs
  exact decodeAt_collection_of_builtin hb site node

theorem decodeAt_map (h : ctx.registry = Registry.defaults) (value : Shape α) (nullable : Bool)
    (site : Site) (node : Node) :
    ctx.decodeAt (.map value nullable) site node =
      guardNull nullable node (ctx.decodeMap value (ctx.decodeAt value) site node) := by
  have hs : (Shape.map value nullable).foreign = false := rfl
  obtain ⟨builtin, hb⟩ := resolve_builtin h hs
  exact decodeAt_map_of_builtin hb site node

theorem decodeAt_record (h : ctx.registry = Registry.defaults) (name : String)
    (fields : List (ShapeField α)) (constructor? : Option (Constructor α)) (nullable : Bool)
    (site : Site) (node : Node) :
    ctx.decodeAt (.record name fields constructor? nullable) site node =
      guardRecord (.record name fields constructor? nullable) node
        (buildRecord name fields constructor? site node
          (List.zipWith nameOutcome fields (ctx.fieldOutcomes fields site node))) := by
  have hs : (Shape.record name fields constructor? nullable).foreign = false := rfl
  obtain ⟨builtin, hb⟩ := resolve_builtin h hs
  exact decodeAt_record_of_builtin hb site node

/-- An absent node is null or missing, but a record that is not to be null is still looked
for in it. -/
theorem decodeAt_undefined (h : ctx.registry = Registry.defaults) {shape : Shape α}
    (hs : shape.foreign = false) (hr : shape.isRecord = false) (site : Site) :
    ctx.decodeAt shape site .undefined =
      if shape.nullable then .ok .null else .fail .missingValue := by
  cases shape with
  | leaf kind nullable =>
    rw [decodeAt_leaf h hs]
    rfl
  | collection kind element nullable =>
    rw [decodeAt_collection h]
    rfl
  | map value nullable =>
    rw [decodeAt_map h]
    rfl
  | record name fields constructor? nullable => simp [Shape.isRecord] at hr

/-- An explicit null is null or refused. -/
theorem decodeAt_null (h : ctx.registry = Registry.defaults) {shape : Shape α}
    (hs : shape.foreign = false) (site : Site) (place : Place) :
    ctx.decodeAt shape site (.null place) =
      if shape.nullable then .ok .null else .fail (.ofNull (.null place)) := by
  cases shape with
  | leaf kind nullable =>
    rw [decodeAt_leaf h hs]
    rfl
  | collection kind element nullable =>
    rw [decodeAt_collection h]
    rfl
  | map value nullable =>
    rw [decodeAt_map h]
    rfl
  | record name fields constructor? nullable =>
    rw [decodeAt_record h]
    rfl

/-! ### The parts of collections and maps -/

theorem mapIdx_map {β γ δ : Type} (parts : List β) (f : β → γ) (g : Nat → γ → δ) :
    (parts.map f).mapIdx g = parts.mapIdx fun i part => g i (f part) := by
  rw [List.mapIdx_eq_iff]
  intro i
  simp [Function.comp_def]

theorem decodeCollection_of_error {element : Shape α} {failures : Failures}
    (h : ctx.registry.resolve element = .error failures) (kind : Collection)
    (decodeElement : Site → Node → Outcome (Value α)) (site : Site) (node : Node) :
    ctx.decodeCollection kind element decodeElement site node = .error failures := by
  rw [decodeCollection, h]

theorem decodeCollection_of_ok {element : Shape α} {decoder : Decoder α}
    (h : ctx.registry.resolve element = .ok decoder) (kind : Collection)
    (decodeElement : Site → Node → Outcome (Value α)) (site : Site) (node : Node) :
    ctx.decodeCollection kind element decodeElement site node =
      match ctx.elements? node with
      | none => .fail (.ofCollection kind.name node)
      | some nodes =>
        ((Outcome.sequence (nodes.mapIdx fun i n => decodeElement (i :: site) n)).wrap
          (.elements kind.name (node.path?.getD ""))).map kind.collect := by
  cases hn : ctx.elements? node with
  | none => simp only [decodeCollection, h, hn]
  | some nodes => simp only [decodeCollection, h, hn]

theorem decodeMap_of_error {value : Shape α} {failures : Failures}
    (h : ctx.registry.resolve value = .error failures)
    (decodeValue : Site → Node → Outcome (Value α)) (site : Site)
    (entries : List (String × Node)) (place : Place) :
    ctx.decodeMap value decodeValue site (.map entries place) = .error failures := by
  rw [decodeMap, h]

theorem decodeMap_of_ok {value : Shape α} {decoder : Decoder α}
    (h : ctx.registry.resolve value = .ok decoder)
    (decodeValue : Site → Node → Outcome (Value α)) (site : Site)
    (entries : List (String × Node)) (place : Place) :
    ctx.decodeMap value decodeValue site (.map entries place) =
      ((Outcome.sequence
        (entries.mapIdx fun i e => ctx.decodeEntry decodeValue (i :: site) e)).wrap
          (.elements "Map" place.path)).map fun pairs => .map (Entries.ofPairs pairs) := by
  rw [decodeMap, h]

theorem decodeCollection_foreign (h : ctx.registry = Registry.defaults) (kind : Collection)
    {element : Shape α} (he : element.foreign = true)
    (decodeElement : Site → Node → Outcome (Value α)) (site : Site) (node : Node) :
    ctx.decodeCollection kind element decodeElement site node =
      .fail (.noDecoder element.text) :=
  decodeCollection_of_error (resolve_foreign h he) kind decodeElement site node

theorem decodeCollection_builtin (h : ctx.registry = Registry.defaults) (kind : Collection)
    {element : Shape α} (he : element.foreign = false)
    (decodeElement : Site → Node → Outcome (Value α)) (site : Site) (node : Node) :
    ctx.decodeCollection kind element decodeElement site node =
      match ctx.elements? node with
      | none => .fail (.ofCollection kind.name node)
      | some nodes =>
        ((Outcome.sequence (nodes.mapIdx fun i n => decodeElement (i :: site) n)).wrap
          (.elements kind.name (node.path?.getD ""))).map kind.collect := by
  obtain ⟨builtin, hb⟩ := resolve_builtin h he
  exact decodeCollection_of_ok hb kind decodeElement site node

theorem decodeMap_foreign (h : ctx.registry = Registry.defaults) {value : Shape α}
    (hv : value.foreign = true) (decodeValue : Site → Node → Outcome (Value α)) (site : Site)
    (entries : List (String × Node)) (place : Place) :
    ctx.decodeMap value decodeValue site (.map entries place) = .fail (.noDecoder value.text) :=
  decodeMap_of_error (resolve_foreign h hv) decodeValue site entries place

theorem decodeMap_builtin (h : ctx.registry = Registry.defaults) {value : Shape α}
    (hv : value.foreign = false) (decodeValue : Site → Node → Outcome (Value α)) (site : Site)
    (entries : List (String × Node)) (place : Place) :
    ctx.decodeMap value decodeValue site (.map entries place) =
      ((Outcome.sequence
        (entries.mapIdx fun i e => ctx.decodeEntry decodeValue (i :: site) e)).wrap
          (.elements "Map" place.path)).map fun pairs => .map (Entries.ofPairs pairs) := by
  obtain ⟨builtin, hb⟩ := resolve_builtin h hv
  exact decodeMap_of_ok hb decodeValue site entries place

theorem decodeMap_no_map (value : Shape α) (decodeValue : Site → Node → Outcome (Value α))
    (site : Site) {node : Node} (h : ∀ entries place, node ≠ .map entries place) :
    ctx.decodeMap value decodeValue site node = .fail (.ofCollection "Map" node) := by
  cases node with
  | map entries place => exact absurd rfl (h entries place)
  | _ => rfl

/-! ### The fields of records -/

variable {fields : List (ShapeField α)} {outcomes : List (Outcome (Option (Value α)))}

/-- The failures of the fields that fail, each under the name of its field, in declared
order. -/
def fieldFailures (fields : List (ShapeField α)) (outcomes : List (Outcome (Option (Value α)))) :
    List Failure :=
  (List.zipWith (fun field o => o.failuresUnder field.name) fields outcomes).flatten

/-- A failure among those of the fields is what some field reports, under its name. -/
theorem exists_field_of_mem {site : Site} {node : Node} {failure : Failure}
    (h : failure ∈ fieldFailures fields (ctx.fieldOutcomes fields site node)) :
    ∃ site', ∃ field ∈ fields, ∃ failures,
      ctx.bindField field (ctx.decodeAt field.shape) site' node = .error failures ∧
        failure = .field field.name failures := by
  obtain ⟨reported, hr, hm⟩ := List.mem_flatten.mp h
  obtain ⟨i, hi⟩ := List.mem_iff_getElem?.mp hr
  obtain ⟨field, o, hf, ho, rfl⟩ := List.getElem?_zipWith_eq_some.mp hi
  rw [fieldOutcomes, List.getElem?_mapIdx, hf] at ho
  cases ho
  obtain ⟨failures, ho, he⟩ := Outcome.mem_failuresUnder.mp hm
  exact ⟨_, field, List.mem_of_getElem? hf, failures, ho, he⟩

/-- Either every field gives something, or the failures of the fields are not empty. -/
theorem values_or_failures : ∀ {fields : List (ShapeField α)}
    {outcomes : List (Outcome (Option (Value α)))}, fields.length = outcomes.length →
    (∃ values : List (Option (Value α)), outcomes = values.map .ok) ∨
      ∃ children : Failures, children.toList = fieldFailures fields outcomes
  | [], [], _ => Or.inl ⟨[], rfl⟩
  | field :: fields, .error fs :: outcomes, _ =>
    Or.inr ⟨⟨.field field.name fs, fieldFailures fields outcomes⟩, rfl⟩
  | field :: fields, .ok value :: outcomes, hlen => by
    rcases values_or_failures (Nat.succ.inj hlen) with ⟨values, rfl⟩ | ⟨children, hc⟩
    · exact Or.inl ⟨value :: values, rfl⟩
    · exact Or.inr ⟨children, hc⟩

/-- A record of fields some of which fail is the one failure that holds theirs. -/
theorem buildRecord_of_failures {children : Failures}
    (h : children.toList = fieldFailures fields outcomes) (name : String)
    (constructor? : Option (Constructor α)) (site : Site) (node : Node) :
    buildRecord name fields constructor? site node (List.zipWith nameOutcome fields outcomes) =
      .fail (.record name node.position node.pathOrRoot children) := by
  have hs : Outcome.sequence (List.zipWith nameOutcome fields outcomes) = .error children := by
    rw [Outcome.sequence_eq_error_iff, h, fieldFailures, List.flatMap_def, List.map_zipWith]
    simp only [nameOutcome, Outcome.failures_map_wrap_field]
  rw [buildRecord, hs]
  rfl

theorem zipWith_nameOutcome_ok : ∀ (fields : List (ShapeField α))
    (values : List (Option (Value α))),
    List.zipWith nameOutcome fields (values.map .ok) =
      (List.zipWith (fun field value? => value?.map (field.name, ·)) fields values).map .ok
  | [], _ => rfl
  | _ :: _, [] => rfl
  | _ :: fields, _ :: values => by
    rw [List.map_cons, List.zipWith_cons_cons, zipWith_nameOutcome_ok fields values]
    rfl

/-- A record of fields that all give something is what its constructor makes of them. -/
theorem buildRecord_of_values (fields : List (ShapeField α)) (values : List (Option (Value α)))
    (name : String) (constructor? : Option (Constructor α)) (site : Site) (node : Node) :
    buildRecord name fields constructor? site node
        (List.zipWith nameOutcome fields (values.map .ok)) =
      match Shape.instantiate name constructor? (.ofBindings fields values) site with
      | .ok value => .ok value
      | .error error =>
        .fail (.constructorRefused name (Arguments.ofBindings fields values).text
          error.message) := by
  have hnamed : (List.zipWith (fun (field : ShapeField α) (value? : Option (Value α)) =>
      value?.map (field.name, ·)) fields values).filterMap id =
      Arguments.named (·.2) (fields.zip values) := by
    rw [Arguments.named, ← Function.id_comp fun b : Arguments.Binding α => _, ← List.filterMap_map,
      List.map_zip_eq_zipWith]
    rfl
  rw [zipWith_nameOutcome_ok, buildRecord, Outcome.sequence_map_ok]
  simp only [Outcome.wrap, hnamed]
  rfl

end Context
end TypedConfig
