/-
# What a record constructor is given

If no field of a record fails, its constructor is given one binding for each field
that is not left to its default, in declared order: null where the field accepts
it and there is no other value, and what the node of the field gives everywhere
else (`Context.Binds`). A default is taken only where nothing is there, never in
place of an explicit null. Whatever field the constructor reads, it finds a value
(`Arguments.Complete`).

The decoders of the application are any, and so are the spellings and the
preprocessors. Only the record itself has to be decoded by the built-in decoder
(`Context.decodeWithin_record`).

Key definitions: `Field.isLeftOut`, `Field.isBoundToNull`, `Context.Binds`,
`Arguments.Complete`.
Key theorems: `Context.bindField_eq_ok`, `Context.binds_ofBindings`,
`Arguments.complete_ofBindings`, `Context.decodeWithin_record`.
-/
import TypedConfig.Proofs.Decoding.Builtin

namespace TypedConfig

variable {α : Type}

/-- Whether a field is left to its default: it has one, and nothing is there. -/
def Field.isLeftOut (field : ShapeField α) (node : Node) : Bool :=
  field.default?.isSome && !node.isDefined

/-- Whether a field that is not left to its default is bound to null: it accepts null, and
nothing or an explicit null is there. -/
def Field.isBoundToNull (field : ShapeField α) (node : Node) : Bool :=
  field.shape.nullable && (!node.isDefined || node.isNull)

namespace Arguments

variable {args : Arguments α} {fields : List (ShapeField α)} {values : List (Option (Value α))}

/-- In no way of reading it the field turns out to be unknown. -/
structure Known (args : Arguments α) (name : String) : Prop where
  value : ∀ missing, args.value name ≠ .error (.unknownField missing)
  get : ∀ target missing, args.get target name ≠ .error (.unknownField missing)
  optionalContent : ∀ {β : Type} (type : ContentType α β) missing,
    args.optionalContent type name ≠ .error (.unknownField missing)
  content : ∀ {β : Type} (type : ContentType α β) missing,
    args.content type name ≠ .error (.unknownField missing)

theorem known_of_value? {name : String} {v : Value α} (h : args.value? name = some v) :
    args.Known name := by
  have hvalue : args.value name = .ok v := by rw [value, h]
  have hoptional : ∀ {β : Type} (type : ContentType α β) missing,
      args.optionalContent type name ≠ .error (.unknownField missing) := by
    intro β type missing hc
    simp only [optionalContent, hvalue, bind, Except.bind] at hc
    split at hc
    · cases hc
    · split at hc <;> cases hc
  refine ⟨fun missing hc => ?_, fun target missing hc => ?_, hoptional,
    fun type missing hc => ?_⟩
  · rw [hvalue] at hc
    cases hc
  · simp only [get, hvalue, bind, Except.bind] at hc
    split at hc <;> cases hc
  · cases ho : args.optionalContent type name with
    | error error =>
      simp only [content, ho, bind, Except.bind] at hc
      cases hc
      exact hoptional type missing ho
    | ok content? =>
      cases content? <;> simp [content, ho, bind, Except.bind, pure, Except.pure] at hc

/-- Every field has a value, the one bound to it or its own default, and they are listed in
declared order. -/
structure Complete (args : Arguments α) (fields : List (ShapeField α)) : Prop where
  value? : ∀ field ∈ fields,
    args.value? field.name = (args.bound.lookup field.name).or field.default?
  exists_value : ∀ field ∈ fields, ∃ value, args.value? field.name = some value
  known : ∀ field ∈ fields, args.Known field.name
  names : Entries.keys args.materialize = fields.map (·.name)
  materialize : ∀ field ∈ fields,
    args.materialize.lookup field.name = args.value? field.name

theorem exists_mem_zip (hlen : fields.length = values.length) {field : ShapeField α}
    (h : field ∈ fields) : ∃ b ∈ fields.zip values, b.1 = field := by
  have hm : field ∈ (fields.zip values).map (·.1) := by rwa [List.map_fst_zip (by omega)]
  exact List.mem_map.mp hm

/-- The arguments are complete if the fields that are left out have defaults. -/
theorem complete_ofBindings (h : (fields.map (·.name)).Nodup)
    (hlen : fields.length = values.length)
    (hleft : ∀ b ∈ fields.zip values, b.2 = none → b.1.default?.isSome = true) :
    (ofBindings fields values).Complete fields := by
  have hfound : ∀ b ∈ fields.zip values, (b.2.or b.1.default?).isSome = true := by
    intro b hb
    cases hv : b.2 with
    | some v => rfl
    | none => exact hleft b hb hv
  have hexists : ∀ field ∈ fields,
      ∃ value, (ofBindings fields values).value? field.name = some value := by
    intro field hfield
    obtain ⟨b, hb, rfl⟩ := exists_mem_zip hlen hfield
    rw [value?_ofBindings h hlen hb]
    exact Option.isSome_iff_exists.mp (hfound b hb)
  refine ⟨fun field hfield => ?_, hexists, fun field hfield => ?_, ?_, fun field hfield => ?_⟩
  · obtain ⟨b, hb, rfl⟩ := exists_mem_zip hlen hfield
    rw [value?_ofBindings h hlen hb, lookup_ofBindings h hlen hb]
  · obtain ⟨v, hv⟩ := hexists field hfield
    exact known_of_value? hv
  · rw [materialize_ofBindings h hlen, keys_named, List.filter_eq_self.mpr hfound,
      names_zip hlen]
  · obtain ⟨b, hb, rfl⟩ := exists_mem_zip hlen hfield
    rw [materialize_ofBindings h hlen, value?_ofBindings h hlen hb]
    exact lookup_named (names_zip hlen ▸ h) b hb

end Arguments

namespace Context

variable {ctx : Context α} {fields : List (ShapeField α)} {values : List (Option (Value α))}
  {site : Site} {node : Node}

/-- The node that a field of a record is bound from. -/
def fieldNode (ctx : Context α) (record : Node) (field : ShapeField α) : Node :=
  ctx.preprocess (ctx.resolveField record field.name)

/-- The arguments bind the fields of the record in declared order, all but those left to
their defaults; `decode` is how the node of a field is decoded. -/
structure Binds (ctx : Context α) (decode : Delegate α) (fields : List (ShapeField α))
    (site : Site) (record : Node) (args : Arguments α) : Prop where
  declared : args.declared = Shape.declarations fields
  names : Entries.keys args.bound =
    (fields.filter fun field => !field.isLeftOut (ctx.fieldNode record field)).map (·.name)
  null : ∀ field ∈ fields, field.isLeftOut (ctx.fieldNode record field) = false →
    field.isBoundToNull (ctx.fieldNode record field) = true →
    args.bound.lookup field.name = some .null
  decoded : ∀ i field, fields[i]? = some field →
    field.isLeftOut (ctx.fieldNode record field) = false →
    field.isBoundToNull (ctx.fieldNode record field) = false →
    ∃ value, decode field.shape (i :: site) (ctx.fieldNode record field) = .ok value ∧
      args.bound.lookup field.name = some value

/-- A field that does not fail is left out, is bound to null, or is bound to what its node
gives. -/
theorem bindField_eq_ok {field : ShapeField α} {decodeValue : Site → Node → Outcome (Value α)}
    {record : Node} {value? : Option (Value α)}
    (h : ctx.bindField field decodeValue site record = .ok value?) :
    (field.isLeftOut (ctx.fieldNode record field) = true ∧ value? = none) ∨
      field.isLeftOut (ctx.fieldNode record field) = false ∧
        (field.isBoundToNull (ctx.fieldNode record field) = true ∧ value? = some .null ∨
          field.isBoundToNull (ctx.fieldNode record field) = false ∧ ∃ value,
            value? = some value ∧ decodeValue site (ctx.fieldNode record field) = .ok value) := by
  rcases (ctx.fieldNode record field).absent_or_present with hn | ⟨place, hn⟩ | hp
  · rw [hn]
    rw [fieldNode] at hn
    rw [bindField, hn] at h
    cases hd : field.default?.isSome with
    | true =>
      rw [hd] at h
      cases h
      simp [Field.isLeftOut, Node.isDefined, hd]
    | false =>
      cases hnull : field.shape.nullable with
      | true =>
        rw [hd, hnull] at h
        cases h
        simp [Field.isLeftOut, Field.isBoundToNull, Node.isDefined, hd, hnull]
      | false =>
        rw [hd, hnull] at h
        cases h
  · rw [hn]
    rw [fieldNode] at hn
    rw [bindField, hn] at h
    cases hnull : field.shape.nullable with
    | true =>
      rw [hnull] at h
      cases h
      simp [Field.isLeftOut, Field.isBoundToNull, Node.isDefined, Node.isNull, hnull]
    | false =>
      rw [hnull] at h
      cases h
  · rw [bindField_present rfl hp] at h
    obtain ⟨value, hv, rfl⟩ := Outcome.map_eq_ok_iff.mp h
    have hboth : (ctx.fieldNode record field).isDefined = true ∧
        (ctx.fieldNode record field).isNull = false := by simpa [Node.isPresent] using hp
    have hleft : field.isLeftOut (ctx.fieldNode record field) = false := by
      simp [Field.isLeftOut, hboth.1]
    have hnull : field.isBoundToNull (ctx.fieldNode record field) = false := by
      simp [Field.isBoundToNull, hboth.1, hboth.2]
    exact Or.inr ⟨hleft, Or.inr ⟨hnull, value, rfl, hv⟩⟩

/-- Only a field that is left to its default is left out. -/
theorem isSome_of_bindField {field : ShapeField α}
    {decodeValue : Site → Node → Outcome (Value α)} {record : Node} {value? : Option (Value α)}
    (h : ctx.bindField field decodeValue site record = .ok value?) :
    value?.isSome = !field.isLeftOut (ctx.fieldNode record field) := by
  rcases bindField_eq_ok h with ⟨hleft, rfl⟩ | ⟨hleft, ⟨-, rfl⟩ | ⟨-, value, rfl, -⟩⟩ <;>
    rw [hleft] <;> rfl

/-- A field is bound to null, where its shape accepts it, or to what a node gives, and only a
field with a default is left out. -/
theorem bindField_spec {field : ShapeField α} {decodeValue : Site → Node → Outcome (Value α)}
    {record : Node} {value? : Option (Value α)} {P : Value α → Prop}
    (hnull : field.shape.nullable = true → P .null)
    (hd : ∀ node v, decodeValue site node = .ok v → P v)
    (h : ctx.bindField field decodeValue site record = .ok value?) :
    (∀ v, value? = some v → P v) ∧ (value? = none → field.default?.isSome = true) := by
  rcases bindField_eq_ok h with ⟨hleft, rfl⟩ | ⟨-, ⟨hb, rfl⟩ | ⟨-, value, rfl, hv⟩⟩
  · rw [Field.isLeftOut, Bool.and_eq_true] at hleft
    exact ⟨nofun, fun _ => hleft.1⟩
  · rw [Field.isBoundToNull, Bool.and_eq_true] at hb
    exact ⟨fun v hv => Option.some.inj hv ▸ hnull hb.1, nofun⟩
  · exact ⟨fun v hv' => Option.some.inj hv' ▸ hd _ value hv, nofun⟩

/-- The bindings of fields none of which fails are the arguments that the record asks for. -/
theorem binds_ofBindings {decode : Delegate α} (h : (fields.map (·.name)).Nodup)
    (hvalues : (fields.mapIdx fun i field =>
      ctx.bindField field (decode field.shape) (i :: site) node) = values.map .ok) :
    ctx.Binds decode fields site node (.ofBindings fields values) := by
  have hlen : fields.length = values.length := by simpa using congrArg List.length hvalues
  have hbound : ∀ b ∈ fields.zip values,
      b.2.isSome = !b.1.isLeftOut (ctx.fieldNode node b.1) := by
    intro b hb
    obtain ⟨i, hi⟩ := Outcome.exists_outcome_of_mem_zip hvalues hb
    exact isSome_of_bindField hi
  refine ⟨rfl, ?_, fun field hfield hleft hnull => ?_, fun i field hi hleft hnull => ?_⟩
  · rw [Arguments.bound_ofBindings h hlen, Arguments.keys_named, List.filter_congr hbound]
    calc ((fields.zip values).filter fun b =>
          !b.1.isLeftOut (ctx.fieldNode node b.1)).map (·.1.name)
        = (((fields.zip values).map (·.1)).filter fun field =>
            !field.isLeftOut (ctx.fieldNode node field)).map (·.name) := by
          rw [List.filter_map, List.map_map]
          rfl
      _ = (fields.filter fun field =>
            !field.isLeftOut (ctx.fieldNode node field)).map (·.name) := by
          rw [List.map_fst_zip (by omega)]
  · obtain ⟨b, hb, rfl⟩ := Arguments.exists_mem_zip hlen hfield
    obtain ⟨i, hi⟩ := Outcome.exists_outcome_of_mem_zip hvalues hb
    rw [Arguments.lookup_ofBindings h hlen hb]
    rcases bindField_eq_ok hi with ⟨hl, -⟩ | ⟨-, ⟨-, hv⟩ | ⟨hn, -⟩⟩
    · rw [hleft] at hl
      cases hl
    · exact hv
    · rw [hnull] at hn
      cases hn
  · obtain ⟨value?, hb, ho⟩ := Outcome.exists_result_of_getElem? hvalues hi
    rcases bindField_eq_ok ho with ⟨hl, -⟩ | ⟨-, ⟨hn, -⟩ | ⟨-, value, rfl, hv⟩⟩
    · rw [hleft] at hl
      cases hl
    · rw [hnull] at hn
      cases hn
    · exact ⟨value, hv, Arguments.lookup_ofBindings h hlen hb⟩

/-! ### Records -/

/-- A record whose fields give values is what is made of their bindings. -/
theorem decodeWithin_of_values {depth : Nat} {name : String} {constructor? : Option (Constructor α)}
    {nullable : Bool} {builtin : Builtin}
    (hr : ctx.registry.resolve (.record name fields constructor? nullable) =
      .ok (.builtin builtin))
    (ho : node.offersFields nullable = true)
    (hvalues : (fields.mapIdx fun i field =>
      ctx.bindField field (ctx.decodeWithin depth field.shape) (i :: site) node) =
        values.map .ok) :
    ctx.decodeWithin depth (.record name fields constructor? nullable) site node =
      match Shape.instantiate name constructor? (.ofBindings fields values) site with
      | .ok value => .ok value
      | .error error =>
        .fail (.constructorRefused name (Arguments.ofBindings fields values).text
          error.message) := by
  obtain ⟨delegate, hd⟩ := ctx.exists_delegate_within depth
  rw [hd] at hvalues
  rw [hd, decodeWith, dispatch_of_builtin hr, guardRecord_offers ho, decodeFields_eq]
  simp only [Nat.add_zero]
  rw [hvalues]
  exact buildRecord_of_values fields values name constructor? site node

/-- **What a record constructor is given.** Let the names of the fields differ, the node be one
that the fields are looked for in, and no field fail, in whatever context and however deep the
decoding is handed back. Then there are arguments that bind the fields as `Binds` says and
hold a value for every field as `Complete` says, and these are what the record is made of: its
constructor is run on them, and without a constructor the value lists all of them. -/
theorem decodeWithin_record {depth : Nat} {nullable : Bool}
    (hnames : (fields.map (·.name)).Nodup) (hoffers : node.offersFields nullable = true)
    (hfields : ∀ i field, fields[i]? = some field → ∃ value?,
      ctx.bindField field (ctx.decodeWithin depth field.shape) (i :: site) node = .ok value?) :
    ∃ args : Arguments α,
      ctx.Binds (ctx.decodeWithin depth) fields site node args ∧ args.Complete fields ∧
      ∀ name constructor? builtin,
        ctx.registry.resolve (.record name fields constructor? nullable) =
          .ok (.builtin builtin) →
        (∀ construct, constructor? = some construct →
          ctx.decodeWithin depth (.record name fields constructor? nullable) site node =
            match construct args with
            | .ok content => .ok (.custom (.born site) content)
            | .error error => .fail (.constructorRefused name args.text error.message)) ∧
        (constructor? = none →
          ctx.decodeWithin depth (.record name fields constructor? nullable) site node =
            .ok (.record name args.materialize)) := by
  obtain ⟨values, hvalues⟩ : ∃ values : List (Option (Value α)), (fields.mapIdx fun i field =>
      ctx.bindField field (ctx.decodeWithin depth field.shape) (i :: site) node) =
        values.map .ok := by
    refine Outcome.exists_results fun o ho => ?_
    obtain ⟨i, hi, rfl⟩ := List.mem_mapIdx.mp ho
    exact hfields i fields[i] (List.getElem?_eq_getElem hi)
  have hlen : fields.length = values.length := by simpa using congrArg List.length hvalues
  have hbinds := binds_ofBindings hnames hvalues
  refine ⟨.ofBindings fields values, hbinds, ?_, fun name constructor? builtin hr => ⟨?_, ?_⟩⟩
  · refine Arguments.complete_ofBindings hnames hlen fun b hb hnone => ?_
    obtain ⟨i, hi⟩ := Outcome.exists_outcome_of_mem_zip hvalues hb
    have hleft : b.1.isLeftOut (ctx.fieldNode node b.1) = true := by
      simpa [hnone] using isSome_of_bindField hi
    rw [Field.isLeftOut, Bool.and_eq_true] at hleft
    exact hleft.1
  · rintro construct rfl
    rw [decodeWithin_of_values hr hoffers hvalues, Shape.instantiate]
    cases construct (.ofBindings fields values) <;> rfl
  · rintro rfl
    rw [decodeWithin_of_values hr hoffers hvalues]
    rfl

/-- A decoder of the application for levels, which are numbers that it hands back. -/
def levelDecoder : CustomDecoder Unit :=
  ⟨"level", (·.isNamed "Level"), 0, false, fun engine site node _ =>
    engine.decode (0 :: site) node (.leaf .long false)⟩

/-- The built-in decoders and the one for levels; fields are looked for in kebab case. -/
def levelContext : Context Unit :=
  (bare (Registry.defaults.register (.custom levelDecoder))).withSpelling FieldName.kebabCase

/-- A log has a file, a level, an owner that is root by default or none, a mode that is
append by default, and perhaps a note. -/
def logFields : List (ShapeField Unit) :=
  [⟨"mode", .leaf (.enum "Mode" ["append", "truncate"]) false, some (.enum "append")⟩,
    ⟨"fileOwner", .leaf .string true, some (.string "root")⟩,
    ⟨"minLevel", .leaf (.named "Level") false, some (.long 0)⟩,
    ⟨"note", .leaf .string true, none⟩]

/-- The owner is explicitly none. -/
def logNode : Node :=
  .map [("min-level", .string "3" ⟨.unknown, "<root>.min-level"⟩),
    ("file-owner", .null ⟨.unknown, "<root>.file-owner"⟩)] ⟨.unknown, "<root>"⟩

theorem logFields_bound : ∀ i field, logFields[i]? = some field → ∃ value?,
    levelContext.bindField field (levelContext.decodeWithin 2 field.shape) [i] logNode =
      .ok value?
  | 0, _, rfl => ⟨none, rfl⟩
  | 1, _, rfl => ⟨some .null, rfl⟩
  | 2, _, rfl => ⟨some (.long 3), rfl⟩
  | 3, _, rfl => ⟨some .null, rfl⟩
  | _ + 4, _, h => by simp [logFields] at h

/-- The mode that is not given is left to its default, and the owner that is given as null is
not. -/
theorem decodeWithin_log :
    (logFields.map (·.name)).Nodup ∧ logNode.offersFields false = true ∧
      (∀ i field, logFields[i]? = some field → ∃ value?,
        levelContext.bindField field (levelContext.decodeWithin 2 field.shape) [i] logNode =
          .ok value?) ∧
      ∃ args : Arguments Unit,
        Entries.keys args.bound = ["fileOwner", "minLevel", "note"] ∧
        args.value? "mode" = some (.enum "append") ∧ args.value? "fileOwner" = some .null ∧
        levelContext.decodeWithin 2 (.record "Log" logFields none false) [] logNode =
          .ok (.record "Log" args.materialize) := by
  have hnames : (logFields.map (·.name)).Nodup := by decide
  have hoffers : logNode.offersFields false = true := rfl
  obtain ⟨args, hbinds, hcomplete, hrecord⟩ :=
    decodeWithin_record hnames hoffers logFields_bound
  have hbound : Entries.keys args.bound = ["fileOwner", "minLevel", "note"] := hbinds.names
  have howner : args.bound.lookup "fileOwner" = some .null :=
    hbinds.null ⟨"fileOwner", .leaf .string true, some (.string "root")⟩ (by simp [logFields])
      rfl rfl
  have hmode : args.bound.lookup "mode" = none :=
    Entries.lookup_eq_none_of_not_mem (by rw [hbound]; decide)
  have hr : levelContext.registry.resolve (.record "Log" logFields none false) =
    .ok (.builtin .record) := rfl
  refine ⟨hnames, hoffers, logFields_bound, args, hbound, ?_, ?_, (hrecord _ _ _ hr).2 rfl⟩
  · have hread := hcomplete.value? ⟨"mode", .leaf (.enum "Mode" ["append", "truncate"]) false,
      some (.enum "append")⟩ (by simp [logFields])
    rw [hread, hmode]
    rfl
  · have hread := hcomplete.value? ⟨"fileOwner", .leaf .string true, some (.string "root")⟩
      (by simp [logFields])
    rw [hread, howner]
    rfl

end Context
end TypedConfig
