/-
# Decoders of the application come before the built-in one of records

The built-in decoder of records has the lowest priority there is. So as soon as a
decoder of the application claims a record shape with a higher priority than that,
the first of the highest priority among the application's own is picked
(`Registry.resolve_eq_custom_iff`). At the lowest priority it is a tie, which goes to
the built-in decoder, as it was registered first
(`Registry.resolve_eq_record_of_not_takenOver`).

A decoding asks for the decoder of every shape that it meets and depends on the
registry in no other way (`Context.decodeWithin_withRegistry`). Hence a record shape
that is taken over is decoded by the application wherever it is met, and any other
decoder could stand in for the built-in one there.

Key definitions: `Registry.TakenOver`, `Context.handBack`, `CustomDecoder.decode`.
Key theorems: `Registry.firstBest_append_iff`, `Registry.resolve_eq_custom_iff`,
`Registry.resolve_eq_record_of_not_takenOver`, `Context.decodeWithin_withRegistry`,
`Context.decodeWithin_takenOver`.
-/
import TypedConfig.Proofs.Decoding.Extension

namespace TypedConfig

variable {α : Type}

namespace Registry

variable {shape : Shape α} {users : List (CustomDecoder α)} {front ds : List (Decoder α)}
  {d : Decoder α}

/-! ### Two rows of decoders -/

/-- A decoder of the second row is the first of the highest priority if it is so in its own
row and outranks all of the first row. -/
theorem firstBest_append_iff (hd : d ∉ front) : FirstBest shape (front ++ ds) d ↔
    (∀ e ∈ front, e.supports shape = true → e.priority < d.priority) ∧ FirstBest shape ds d := by
  constructor
  · rintro ⟨before, after, heq, hs, hbefore, hafter⟩
    rcases List.append_eq_append_iff.mp heq with ⟨more, rfl, rfl⟩ | ⟨more, rfl, hrest⟩
    · refine ⟨fun e he => hbefore e (List.mem_append_left _ he), more, after, rfl, hs, ?_, hafter⟩
      exact fun e he => hbefore e (List.mem_append_right _ he)
    · cases more with
      | nil =>
        rw [List.append_nil] at hd
        refine ⟨by simpa using hbefore, [], after, hrest.symm, hs, by simp, hafter⟩
      | cons e more =>
        -- then the decoder itself would stand in the first row
        obtain ⟨rfl, -⟩ := List.cons.inj hrest
        simp at hd
  · rintro ⟨hfront, before, after, rfl, hs, hbefore, hafter⟩
    refine ⟨front ++ before, after, by simp, hs, fun e he => ?_, hafter⟩
    rcases List.mem_append.mp he with he | he
    · exact hfront e he
    · exact hbefore e he

/-! ### Decoders of the application -/

/-- A decoder of the application claims the shape with more than the lowest priority. -/
def TakenOver (users : List (CustomDecoder α)) (shape : Shape α) : Prop :=
  ∃ d ∈ users, d.supports shape = true ∧ Int32.minValue < d.priority

theorem mem_custom {user : CustomDecoder α} :
    Decoder.custom user ∈ users.map Decoder.custom ↔ user ∈ users := by
  simp

theorem custom_not_mem_defaults (user : CustomDecoder α) :
    Decoder.custom user ∉ (defaults : Registry α).decoders := by
  simp [defaults]

/-- Of the built-in decoders only that of records claims records. -/
theorem eq_record_of_mem_defaults (hrecord : shape.isRecord = true) {e : Decoder α}
    (he : e ∈ (defaults : Registry α).decoders) (hs : e.supports shape = true) :
    e = .builtin .record := by
  obtain ⟨name, fields, constructor?, nullable, rfl⟩ := Shape.isRecord_eq_true_iff.mp hrecord
  obtain ⟨kind, -, rfl⟩ := List.mem_map.mp he
  cases kind <;> first | rfl | cases hs

/-- If a shape is taken over, one of the application's decoders is the first of the highest
priority among them. -/
theorem TakenOver.exists_firstBest (h : TakenOver users shape) :
    ∃ d ∈ users, d.supports shape = true ∧ Int32.minValue < d.priority ∧
      FirstBest shape (users.map .custom) (.custom d) := by
  obtain ⟨user, hu, hs, hlow⟩ := h
  cases hb : best shape (users.map .custom) with
  | none =>
    have hno : (Decoder.custom user).supports shape = false :=
      best_eq_none_iff.mp hb _ (mem_custom.mpr hu)
    exact absurd hs (Bool.eq_false_iff.mp hno)
  | some picked =>
    have hfirst := best_eq_some_iff.mp hb
    obtain ⟨d, hd, rfl⟩ := List.mem_map.mp hfirst.mem
    have hle : (Decoder.custom user).priority ≤ (Decoder.custom d).priority :=
      hfirst.le (mem_custom.mpr hu) hs
    exact ⟨d, hd, hfirst.supports, Int32.lt_of_lt_of_le hlow hle, hfirst⟩

/-- For a record a decoder of the application is picked exactly if it is the first of the
highest priority among the application's and that is not the lowest there is. -/
theorem resolve_eq_custom_iff (hrecord : shape.isRecord = true) {user : CustomDecoder α} :
    (defaults.registerAll (users.map .custom)).resolve shape = .ok (.custom user) ↔
      Int32.minValue < user.priority ∧ FirstBest shape (users.map .custom) (.custom user) := by
  rw [resolve_eq_ok_iff, decoders_registerAll, firstBest_append_iff (custom_not_mem_defaults user)]
  refine and_congr_left fun _ => ⟨fun h => ?_, fun h e he hs => ?_⟩
  · refine h (.builtin .record) (by simp [defaults]) ?_
    obtain ⟨name, fields, constructor?, nullable, rfl⟩ := Shape.isRecord_eq_true_iff.mp hrecord
    rfl
  · rw [eq_record_of_mem_defaults hrecord he hs]
    exact h

/-- A record that is not taken over is left to the built-in decoder, also by decoders of the
application that claim it with the lowest priority. -/
theorem resolve_eq_record_of_not_takenOver (hrecord : shape.isRecord = true)
    (h : ¬ TakenOver users shape) :
    (defaults.registerAll (users.map .custom)).resolve shape = .ok (.builtin .record) := by
  have hkept : (defaults : Registry α).resolve shape = .ok (.builtin .record) := by
    obtain ⟨name, fields, constructor?, nullable, rfl⟩ := Shape.isRecord_eq_true_iff.mp hrecord
    rfl
  have hdefer : defaults.Defers (users.map .custom) shape := by
    intro d hd hs
    obtain ⟨user, hu, rfl⟩ := List.mem_map.mp hd
    exact ⟨_, hkept, Int32.not_lt.mp fun hlow => h ⟨user, hu, hs, hlow⟩⟩
  rw [resolve_registerAll hdefer, hkept]

/-- A decoder of the lowest priority that is registered before all others makes no difference
to a shape for which there is one of a higher priority. -/
theorem best_cons_lowest {e : Decoder α} (hlow : e.priority = Int32.minValue)
    (h : e.supports shape = true →
      ∃ d ∈ ds, d.supports shape = true ∧ Int32.minValue < d.priority) :
    best shape (e :: ds) = best shape ds := by
  by_cases he : e.supports shape = true
  · obtain ⟨d, hd, hs, hlt⟩ := h he
    cases hb : best shape ds with
    | none => simp [best_eq_none_iff.mp hb d hd] at hs
    | some picked =>
      have hle : d.priority ≤ picked.priority := (best_eq_some_iff.mp hb).le hd hs
      rw [best_cons_of_some he hb, hlow, if_pos (Int32.lt_of_lt_of_le hlt hle)]
  · exact best_cons_of_not_supports (Bool.not_eq_true _ ▸ he)

end Registry

/-- What a decoder of the application makes of a node, absent and null ones included. -/
def CustomDecoder.decode (decoder : CustomDecoder α) (engine : Engine α) (shape : Shape α)
    (site : Site) (node : Node) : Outcome (Value α) :=
  if decoder.guardsNull then
    Context.guardNull shape.nullable node (decoder.run engine site node shape)
  else decoder.run engine site node shape

namespace Context

variable {ctx : Context α} {shape : Shape α}

/-! ### What decides the decoder -/

/-- What decodes the nodes that decoders of the application hand back, if they may do so
`depth` times. -/
def handBack (ctx : Context α) : Nat → Delegate α
  | 0 => fun shape _ _ => .fail (Registry.unsupported shape)
  | depth + 1 => ctx.decodeWithin depth

theorem decodeWithin_eq (ctx : Context α) (depth : Nat) :
    ctx.decodeWithin depth = ctx.decodeWith (ctx.handBack depth) := by
  cases depth <;> rfl

/-- A shape for which a decoder of the application is picked is decoded by it, at any site. -/
theorem decodeWithin_of_custom {decoder : CustomDecoder α}
    (h : ctx.registry.resolve shape = .ok (.custom decoder)) (depth : Nat) (site : Site)
    (node : Node) :
    ctx.decodeWithin depth shape site node =
      decoder.decode (ctx.engine (ctx.handBack depth)) shape site node := by
  have hdispatch : ∀ builtin, ctx.dispatch (ctx.handBack depth) shape site node builtin =
      decoder.decode (ctx.engine (ctx.handBack depth)) shape site node := by
    intro builtin
    rw [dispatch, h]
    rfl
  rw [decodeWithin_eq]
  cases shape <;> rw [decodeWith, hdispatch]

variable {registry : Registry α}

/-- Registries that pick the same decoders give the same decodings. -/
theorem decodeWithin_withRegistry (h : ∀ t, registry.resolve t = ctx.registry.resolve t)
    (depth : Nat) : (ctx.withRegistry registry).decodeWithin depth = ctx.decodeWithin depth := by
  have hlevel : ∀ delegate,
      (ctx.withRegistry registry).decodeWith delegate = ctx.decodeWith delegate := by
    intro delegate
    funext shape
    have hsame : ∀ part, ctx.SameDecoder registry delegate delegate part :=
      fun part => .of_resolve (h part)
    exact decodeWith_withRegistry (Shape.everywhere_of_forall hsame shape)
  induction depth with
  | zero => exact hlevel _
  | succ depth ih =>
    rw [decodeWithin, decodeWithin, ih]
    exact hlevel _

/-- The context with one more decoder, registered before all others. -/
def withFirst (ctx : Context α) (standIn : CustomDecoder α) : Context α :=
  ctx.withRegistry ⟨.custom standIn :: ctx.registry.decoders⟩

/-- **A record that the application claims is decoded by the application.** Let decoders of
the application be registered beside the built-in ones, in any order and with any priorities.
If one of them claims a record shape with more than the lowest priority, then the first of the
highest priority among them is picked for it, and decodes every node that is to be decoded as
the shape, at any site. If not, the built-in decoder of records is picked, which has the lowest
priority too and is registered before them.

The built-in decoder is not asked for shapes that are taken over: a decoder that stands in for
it there, whatever it does, makes no difference to any decoding. -/
theorem decodeWithin_takenOver {users : List (CustomDecoder α)}
    (hreg : ctx.registry = Registry.defaults.registerAll (users.map .custom)) :
    (∀ shape : Shape α, shape.isRecord = true →
      (Registry.TakenOver users shape → ∃ d ∈ users, d.supports shape = true ∧
        Registry.FirstBest shape (users.map .custom) (.custom d) ∧
        ctx.registry.resolve shape = .ok (.custom d) ∧
        ∀ depth site node, ctx.decodeWithin depth shape site node =
          d.decode (ctx.engine (ctx.handBack depth)) shape site node) ∧
      (¬ Registry.TakenOver users shape → ctx.registry.resolve shape = .ok (.builtin .record))) ∧
    ∀ standIn : CustomDecoder α, standIn.priority = Int32.minValue →
      (∀ shape, standIn.supports shape = true → Registry.TakenOver users shape) →
      ∀ depth, (ctx.withFirst standIn).decodeWithin depth = ctx.decodeWithin depth := by
  refine ⟨fun shape hrecord => ⟨fun htaken => ?_, fun hnot => ?_⟩, fun standIn hlow hclaims => ?_⟩
  · obtain ⟨d, hd, hs, hpriority, hfirst⟩ := htaken.exists_firstBest
    have hpicked : ctx.registry.resolve shape = .ok (.custom d) := by
      rw [hreg]
      exact (Registry.resolve_eq_custom_iff hrecord).mpr ⟨hpriority, hfirst⟩
    exact ⟨d, hd, hs, hfirst, hpicked, decodeWithin_of_custom hpicked⟩
  · rw [hreg]
    exact Registry.resolve_eq_record_of_not_takenOver hrecord hnot
  · refine decodeWithin_withRegistry fun shape => ?_
    have hsame : Registry.best shape (.custom standIn :: ctx.registry.decoders) =
        Registry.best shape ctx.registry.decoders := by
      refine Registry.best_cons_lowest hlow fun hs => ?_
      obtain ⟨d, hd, hsupports, hlt⟩ := hclaims shape hs
      refine ⟨.custom d, ?_, hsupports, hlt⟩
      rw [hreg, Registry.decoders_registerAll]
      exact List.mem_append_right _ (Registry.mem_custom.mpr hd)
    rw [Registry.resolve, Registry.resolve, hsame]

/-- A decoder of the application for records called `Server`. -/
def serverDecoder (name : String) (priority : Int32) : CustomDecoder Unit :=
  ⟨name, fun shape => shape.isRecord && shape.text == "Server", priority, true,
    fun _ _ _ _ => .ok (.string name)⟩

/-- A record that the application may take over, with a field that is not given. -/
def serverRecord : Shape Unit := .record "Server" [⟨"port", .leaf .long false, none⟩] none false

/-- A record with a list of servers. -/
def clusterRecord : Shape Unit :=
  .record "Cluster" [⟨"servers", .collection .list serverRecord false, none⟩] none false

/-- A cluster of one server, with nothing in it. -/
def clusterNode : Node :=
  .map [("servers", .array [.map [] ⟨.unknown, "<root>.servers[0]"⟩]
    ⟨.unknown, "<root>.servers"⟩)] ⟨.unknown, "<root>"⟩

/-- The built-in decoders and those of the application. -/
def serverContext (users : List (CustomDecoder Unit)) : Context Unit :=
  ofRegistry (Registry.defaults.registerAll (users.map .custom))

/-- Two decoders for servers, one with the lowest priority and one just above it. -/
def serverDecoders : List (CustomDecoder Unit) :=
  [serverDecoder "a" Int32.minValue, serverDecoder "b" (-2147483647)]

theorem takenOver_serverDecoders {shape : Shape Unit}
    (h : (shape.isRecord && shape.text == "Server") = true) :
    Registry.TakenOver serverDecoders shape :=
  ⟨serverDecoder "b" (-2147483647), by simp [serverDecoders], h,
    (by decide : Int32.minValue < -2147483647)⟩

/-- The decoder just above the lowest priority decodes every server, also the one in the list,
which the built-in decoder would refuse; a third decoder with the lowest priority is not asked
even in front of all others. Nor is one with the lowest priority that is there by itself. -/
theorem decodeWithin_cluster :
    (serverContext serverDecoders).registry =
      Registry.defaults.registerAll (serverDecoders.map .custom) ∧
    Registry.TakenOver serverDecoders serverRecord ∧
    (∀ depth site place, (serverContext serverDecoders).decodeWithin depth serverRecord site
      (.map [] place) = .ok (.string "b")) ∧
    ((serverContext serverDecoders).withFirst (serverDecoder "c" Int32.minValue)).decode clusterNode
      clusterRecord = .ok (.record "Cluster" [("servers", .list [.string "b"])]) ∧
    ¬ Registry.TakenOver [serverDecoder "a" Int32.minValue] serverRecord ∧
    (serverContext [serverDecoder "a" Int32.minValue]).registry.resolve serverRecord =
      .ok (.builtin .record) := by
  have hreg : (serverContext serverDecoders).registry =
      Registry.defaults.registerAll (serverDecoders.map .custom) := rfl
  have htaken : Registry.TakenOver serverDecoders serverRecord :=
    takenOver_serverDecoders (by decide)
  obtain ⟨hrecords, hstandIn⟩ := decodeWithin_takenOver hreg
  obtain ⟨d, -, -, -, hpicked, hdecode⟩ := (hrecords serverRecord rfl).1 htaken
  have hd : serverDecoder "b" (-2147483647) = d := Decoder.custom.inj (Except.ok.inj hpicked)
  subst hd
  have hregLowest : (serverContext [serverDecoder "a" Int32.minValue]).registry =
      Registry.defaults.registerAll ([serverDecoder "a" Int32.minValue].map .custom) := rfl
  have hnot : ¬ Registry.TakenOver [serverDecoder "a" Int32.minValue] serverRecord := by
    rintro ⟨d, hd, -, hlow⟩
    rw [List.mem_singleton.mp hd] at hlow
    exact Int32.lt_irrefl hlow
  refine ⟨hreg, htaken, fun depth site place => ?_, ?_, hnot, ?_⟩
  · rw [hdecode]
    rfl
  · rw [decode, hstandIn (serverDecoder "c" Int32.minValue) rfl fun _ => takenOver_serverDecoders]
    rfl
  · exact ((decodeWithin_takenOver hregLowest).1 serverRecord rfl).2 hnot

end Context
end TypedConfig
