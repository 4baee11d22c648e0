/-
# The tree builder follows the tree

Feeding the events of a tree to the builder is reading the tree by recursion. The
events of a part lead the builder from any state that waits for a node to the one
in which the part is complete, or stop it at the first thing in the part that a
node cannot express (`TreeBuilder.Leads`). What the open containers hold outside
the part never changes, so the runs of parts compose (`TreeBuilder.Leads.bind`).

Key definitions: `Event.isFraming`, `TreeBuilder.expectsKey`, `TreeBuilder.enter`,
`TreeBuilder.Leads`.
Key theorems: `TreeBuilder.Leads.bind`, `TreeBuilder.leads_events`,
`buildTree_eq_denote`, `buildTree_framed`.
-/
import TypedConfig.Proofs.Entries
import TypedConfig.Proofs.Yaml.EventTree

namespace TypedConfig
namespace Yaml

/-- Whether the event marks the beginning or the end of a document or of the stream. -/
def Event.isFraming : Event → Bool
  | .streamStart | .streamEnd | .documentStart | .documentEnd => true
  | _ => false

namespace TreeBuilder

variable {b : TreeBuilder}

/-- Whether what comes next is a key. -/
def expectsKey (b : TreeBuilder) : Bool :=
  match b.unfinished with
  | .mapping _ _ none :: _ => true
  | _ => false

/-- The path of what comes next. -/
def nextPath (b : TreeBuilder) : String :=
  match b.unfinished with
  | container :: _ => container.nextPath
  | [] => rootPath

/-- The builder with one more container open. -/
def enter (b : TreeBuilder) (container : Container) : TreeBuilder :=
  { b with unfinished := container :: b.unfinished }

/-! ### Single events -/

theorem receive_framing {event : Event} (h : event.isFraming = true) :
    b.receive event = b := by
  unfold receive
  cases event <;> simp [Event.isFraming] at h <;> cases b.error? <;> rfl

theorem receive_stopped {error : ParseError} (h : b.error? = some error) (event : Event) :
    b.receive event = b := by
  unfold receive
  rw [h]

theorem receive_scalar (he : b.error? = none) (hk : b.expectsKey = false) (mark : Mark)
    (style : ScalarStyle) (text : String) :
    b.receive (.scalar mark style text) =
      b.complete (EventTree.scalarNode style text ⟨mark.position b.source, b.nextPath⟩) := by
  unfold receive
  rw [he]
  change b.receiveScalar mark style text = _
  unfold receiveScalar
  split
  · rename_i hu
    simp [expectsKey, hu] at hk
  · rfl

theorem receive_key (he : b.error? = none) (place : Place) (entries : Entries Node)
    (mark : Mark) (style : ScalarStyle) (text : String) :
    (b.enter (.mapping place entries none)).receive (.scalar mark style text) =
      if text ∈ Entries.keys entries then
        (b.enter (.mapping place entries none)).stop
          (.duplicateKey text place.path (mark.position b.source))
      else b.enter (.mapping place entries (some text)) := by
  have he' : (b.enter (.mapping place entries none)).error? = none := he
  unfold receive
  rw [he']
  simp only [← Entries.isSome_lookup_iff]
  rfl

theorem receive_reference (he : b.error? = none) (mark : Mark) :
    b.receive (.reference mark) =
      b.stop (.unsupported "YAML aliases are not supported" (mark.position b.source)) := by
  unfold receive
  rw [he]
  rfl

theorem receive_sequenceStart (he : b.error? = none) (mark : Mark) :
    b.receive (.sequenceStart mark) = b.receiveStart mark fun place => .sequence place [] := by
  unfold receive
  rw [he]

theorem receive_mappingStart (he : b.error? = none) (mark : Mark) :
    b.receive (.mappingStart mark) = b.receiveStart mark fun place => .mapping place [] none := by
  unfold receive
  rw [he]

/-- A container that is a value or an element is entered. -/
theorem receiveStart_value (hk : b.expectsKey = false) (mark : Mark)
    (container : Place → Container) :
    b.receiveStart mark container =
      b.enter (container ⟨mark.position b.source, b.nextPath⟩) := by
  unfold receiveStart
  split
  · rename_i hu
    simp [expectsKey, hu] at hk
  · rfl

/-- A container cannot be a key. -/
theorem receiveStart_key (place : Place) (entries : Entries Node) (mark : Mark)
    (container : Place → Container) :
    (b.enter (.mapping place entries none)).receiveStart mark container =
      (b.enter (.mapping place entries none)).stop
        (.unsupported "only scalar mapping keys are supported" (mark.position b.source)) := rfl

theorem receive_sequenceEnd (he : b.error? = none) : b.receive .sequenceEnd = b.receiveEnd := by
  unfold receive
  rw [he]

theorem receive_mappingEnd (he : b.error? = none) : b.receive .mappingEnd = b.receiveEnd := by
  unfold receive
  rw [he]

/-- The end of a container completes the node that it is. -/
theorem receiveEnd_enter (container : Container) :
    (b.enter container).receiveEnd = b.complete container.node := rfl

/-! ### Runs -/

/-- The events lead the builder to what `done` makes of a result, or stop it at an
error. -/
def Leads {β : Type} (b : TreeBuilder) (events : List Event) (outcome : Except ParseError β)
    (done : β → TreeBuilder) : Prop :=
  match outcome with
  | .ok result => events.foldl receive b = done result
  | .error error => (events.foldl receive b).error? = some error

/-- A builder that has stopped takes no more events. -/
theorem foldl_stopped {error : ParseError} (h : b.error? = some error) :
    ∀ events : List Event, events.foldl receive b = b
  | [] => rfl
  | event :: events => by
    rw [List.foldl_cons, receive_stopped h]
    exact foldl_stopped h events

theorem leads_stop {β : Type} {event : Event} {error : ParseError} {done : β → TreeBuilder}
    (h : b.receive event = b.stop error) (events : List Event) :
    Leads b (event :: events) (.error error) done := by
  change ((event :: events).foldl receive b).error? = some error
  rw [List.foldl_cons, h, foldl_stopped rfl events]
  rfl

/-- Runs compose: where the first stops, so do both. -/
theorem Leads.bind {β γ : Type} {first second : List Event} {outcome : Except ParseError β}
    {f : β → Except ParseError γ} {done : β → TreeBuilder} {done' : γ → TreeBuilder}
    (h : Leads b first outcome done)
    (hf : ∀ result, outcome = .ok result → Leads (done result) second (f result) done') :
    Leads b (first ++ second) (outcome >>= f) done' := by
  cases outcome with
  | ok result =>
    have hnext := hf result rfl
    have hfirst : first.foldl receive b = done result := h
    change Leads b (first ++ second) (f result) done'
    unfold Leads at hnext ⊢
    rwa [List.foldl_append, hfirst]
  | error error =>
    have hstop : (first.foldl receive b).error? = some error := h
    change ((first ++ second).foldl receive b).error? = some error
    rwa [List.foldl_append, foldl_stopped hstop]

theorem Leads.cons {β : Type} {next : TreeBuilder} {event : Event} {events : List Event}
    {outcome : Except ParseError β} {done : β → TreeBuilder} (h : b.receive event = next)
    (hnext : Leads next events outcome done) : Leads b (event :: events) outcome done := by
  unfold Leads at hnext ⊢
  rwa [List.foldl_cons, h]

theorem Leads.map {β γ : Type} {events : List Event} {outcome : Except ParseError β}
    {done : β → TreeBuilder} {done' : γ → TreeBuilder} (h : Leads b events outcome done)
    (g : β → γ) (hg : ∀ result, done result = done' (g result)) :
    Leads b events (outcome >>= fun result => pure (g result)) done' := by
  cases outcome with
  | ok result =>
    have hrun : events.foldl receive b = done result := h
    exact hrun.trans (hg result)
  | error error => exact h

/-! ### Trees -/

theorem not_mem_of_denoteKey {source path : String} {keys : List String} {key : EventTree}
    {text : String} (h : key.denoteKey source path keys = .ok text) : text ∉ keys := by
  cases key with
  | scalar mark style text' =>
    rw [EventTree.denoteKey] at h
    split at h
    · cases h
    · rename_i hm
      cases h
      exact hm
  | _ => cases h

/-- The events of a key make it wait for its value. -/
theorem leads_key (he : b.error? = none) (place : Place) (entries : Entries Node)
    (key : EventTree) :
    Leads (b.enter (.mapping place entries none)) key.events
      (key.denoteKey b.source place.path (Entries.keys entries))
      fun text => b.enter (.mapping place entries (some text)) := by
  have he' : (b.enter (.mapping place entries none)).error? = none := he
  cases key with
  | scalar mark style text =>
    have hrun := receive_key he place entries mark style text
    rw [EventTree.events, EventTree.denoteKey]
    by_cases hm : text ∈ Entries.keys entries
    · rw [if_pos hm] at hrun ⊢
      exact leads_stop hrun []
    · rw [if_neg hm] at hrun ⊢
      exact hrun
  | reference mark => exact leads_stop (receive_reference he' mark) []
  | sequence mark elements =>
    have hstart := receive_sequenceStart he' mark
    exact leads_stop (hstart.trans (receiveStart_key place entries mark _)) _
  | mapping mark pairs =>
    have hstart := receive_mappingStart he' mark
    exact leads_stop (hstart.trans (receiveStart_key place entries mark _)) _

mutual

/-- The events of a tree complete the node that the tree means. -/
theorem leads_events : ∀ (tree : EventTree) {b : TreeBuilder}, b.error? = none →
    b.expectsKey = false → Leads b tree.events (tree.denote b.source b.nextPath) b.complete
  | .scalar mark style text, b, he, hk => receive_scalar he hk mark style text
  | .reference mark, _, he, _ => leads_stop (receive_reference he mark) []
  | .sequence mark elements, b, he, hk => by
    let place : Place := ⟨mark.position b.source, b.nextPath⟩
    rw [EventTree.events, EventTree.denote]
    have hstart := (receive_sequenceStart he mark).trans (receiveStart_value hk mark _)
    refine .cons hstart (.bind (leads_elements elements he place []) fun nodes _ => ?_)
    -- the open sequence holds its elements backwards
    have hnode : (Container.sequence place (nodes.reverse ++ [])).node = .array nodes place := by
      rw [List.append_nil, Container.node, List.reverse_reverse]
    have hend := receive_sequenceEnd (b := b.enter (.sequence place (nodes.reverse ++ []))) he
    exact hend.trans (hnode ▸ receiveEnd_enter _)
  | .mapping mark pairs, b, he, hk => by
    let place : Place := ⟨mark.position b.source, b.nextPath⟩
    rw [EventTree.events, EventTree.denote]
    have hstart := (receive_mappingStart he mark).trans (receiveStart_value hk mark _)
    refine .cons hstart (.bind (leads_pairs pairs he place []) fun entries _ => ?_)
    have hend := receive_mappingEnd (b := b.enter (.mapping place entries none)) he
    exact hend.trans (receiveEnd_enter _)

/-- The events of elements add their nodes to the open sequence, the last one in front. -/
theorem leads_elements : ∀ (elements : List EventTree) {b : TreeBuilder}, b.error? = none →
    ∀ (place : Place) (before : List Node),
      Leads (b.enter (.sequence place before)) (EventTree.elementEvents elements)
        (EventTree.denoteElements b.source place.path before.length elements)
        fun nodes => b.enter (.sequence place (nodes.reverse ++ before))
  | [], _, _, _, _ => rfl
  | element :: elements, b, he, place, before => by
    rw [EventTree.elementEvents, EventTree.denoteElements]
    have helement : Leads (b.enter (.sequence place before)) element.events
        (element.denote b.source (elementPath place.path before.length))
        fun node => b.enter (.sequence place (node :: before)) := leads_events element he rfl
    refine helement.bind fun node _ => ?_
    refine (leads_elements elements he place (node :: before)).map (node :: ·) fun nodes => ?_
    rw [List.reverse_cons, List.append_assoc, List.singleton_append]

/-- The events of pairs add their entries to the open mapping. -/
theorem leads_pairs : ∀ (pairs : List (EventTree × EventTree)) {b : TreeBuilder},
    b.error? = none → ∀ (place : Place) (entries : Entries Node),
      Leads (b.enter (.mapping place entries none)) (EventTree.pairEvents pairs)
        (EventTree.denotePairs b.source place.path (Entries.keys entries) pairs)
        fun more => b.enter (.mapping place (entries ++ more) none)
  | [], b, he, place, entries => by
    change b.enter _ = b.enter _
    rw [List.append_nil]
  | (key, value) :: pairs, b, he, place, entries => by
    rw [EventTree.pairEvents, EventTree.denotePairs, List.append_assoc]
    refine (leads_key he place entries key).bind fun text htext => ?_
    -- the key is new, so its entry comes after all others
    have hfresh := not_mem_of_denoteKey htext
    have hvalue : Leads (b.enter (.mapping place entries (some text))) value.events
        (value.denote b.source (childPath place.path text))
        fun node => b.enter (.mapping place (entries ++ [(text, node)]) none) := by
      simp only [← Entries.insert_of_not_mem hfresh]
      exact leads_events value he rfl
    refine hvalue.bind fun node _ => ?_
    have hrest := leads_pairs pairs he place (entries ++ [(text, node)])
    rw [Entries.keys, List.map_append] at hrest
    refine hrest.map ((text, node) :: ·) fun more => ?_
    rw [List.append_assoc, List.singleton_append]

end

theorem foldl_framing : ∀ {events : List Event}, (∀ event ∈ events, event.isFraming = true) →
    ∀ b : TreeBuilder, events.foldl receive b = b
  | [], _, _ => rfl
  | event :: events, h, b => by
    rw [List.foldl_cons, receive_framing (h event List.mem_cons_self)]
    exact foldl_framing (fun e he => h e (List.mem_cons_of_mem _ he)) b

end TreeBuilder

open TreeBuilder in
/-- From the events of a tree, with events around it that only frame it, the builder makes what
the tree means. -/
theorem buildTree_eq_denote (source : String) (tree : EventTree) {before after : List Event}
    (hbefore : ∀ event ∈ before, event.isFraming = true)
    (hafter : ∀ event ∈ after, event.isFraming = true) :
    buildTree source (before ++ tree.events ++ after) = tree.denote source rootPath := by
  rw [buildTree, List.foldl_append, List.foldl_append, foldl_framing hbefore,
    foldl_framing hafter]
  have hrun : Leads (start source) tree.events (tree.denote source rootPath)
      (start source).complete := leads_events tree rfl rfl
  cases hd : tree.denote source rootPath with
  | ok root =>
    rw [hd] at hrun
    have hdone : tree.events.foldl receive (start source) = (start source).complete root := hrun
    rw [hdone]
    rfl
  | error error =>
    rw [hd] at hrun
    have hstop : (tree.events.foldl receive (start source)).error? = some error := hrun
    rw [finish, hstop]

/-- A text with one document is read as what the document means. -/
theorem buildTree_documentEvents (source : String) (tree : EventTree) :
    buildTree source (documentEvents tree) = tree.denote source rootPath := by
  have hbefore : ∀ event ∈ [Event.streamStart, .documentStart], event.isFraming = true := by
    decide
  have hafter : ∀ event ∈ [Event.documentEnd], event.isFraming = true := by decide
  exact buildTree_eq_denote source tree hbefore hafter

/-- **The tree builder refines the recursive meaning.** From the events of a tree, with
events around it that only frame it, the builder makes the node of the tree; or it reports
the first thing in the order of the document that a node cannot express. -/
theorem buildTree_framed (source : String) (tree : EventTree) {before after : List Event}
    (hbefore : ∀ event ∈ before, event.isFraming = true)
    (hafter : ∀ event ∈ after, event.isFraming = true) :
    buildTree source (before ++ tree.events ++ after) =
      verdict (tree.violations source rootPath) (tree.node source rootPath) := by
  rw [buildTree_eq_denote source tree hbefore hafter, EventTree.denote_eq]

/-- A mapping with a list of ports and one more entry. -/
def portsTree (key : String) (value : EventTree) : EventTree :=
  .mapping ⟨0, 1, 0⟩
    [(.scalar ⟨0, 1, 0⟩ .plain "ports", .sequence ⟨9, 2, 2⟩
        [.scalar ⟨11, 2, 4⟩ .plain "80", .scalar ⟨16, 3, 4⟩ .doubleQuoted "81"]),
      (.scalar ⟨21, 4, 0⟩ .plain key, value)]

/-- Only the plain port is a number. Of a repeated key and a reference under it, the key is
reported. -/
theorem buildTree_portsTree :
    (∀ event ∈ [Event.streamStart, .documentStart], event.isFraming = true) ∧
      (∀ event ∈ [Event.documentEnd], event.isFraming = true) ∧
      buildTree "s" ([.streamStart, .documentStart] ++
          (portsTree "name" (.scalar ⟨27, 4, 6⟩ .plain "~")).events ++ [.documentEnd]) =
        .ok (.map
          [("ports", .array
              [.long 80 ⟨.at 1 4 "s", "<root>.ports[0]"⟩,
                .string "81" ⟨.at 2 4 "s", "<root>.ports[1]"⟩] ⟨.at 1 2 "s", "<root>.ports"⟩),
            ("name", .null ⟨.at 3 6 "s", "<root>.name"⟩)] ⟨.at 0 0 "s", "<root>"⟩) ∧
      buildTree "s" ([.streamStart, .documentStart] ++
          (portsTree "ports" (.reference ⟨28, 4, 7⟩)).events ++ [.documentEnd]) =
        .error (.duplicateKey "ports" "<root>" (.at 3 0 "s")) := by
  have hbefore : ∀ event ∈ [Event.streamStart, .documentStart], event.isFraming = true := by
    decide
  have hafter : ∀ event ∈ [Event.documentEnd], event.isFraming = true := by decide
  refine ⟨hbefore, hafter, ?_, ?_⟩
  · rw [buildTree_framed "s" _ hbefore hafter]
    rfl
  · rw [buildTree_framed "s" _ hbefore hafter]
    rfl

end Yaml
end TypedConfig
