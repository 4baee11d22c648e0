/-
# What parsers promise

A tree that a parser gives is as decoding expects it: the root is at the path of
roots and every child below its parent, every node knows where it is in the
source, nothing is undefined, no key comes twice in a map, and every double is
finite (`Node.WellParsed`).

The promise is kept by the builder of trees whatever events it receives, so it
does not hang on the scanner. What carries it is an invariant of the open
containers (`TreeBuilder.Consistent`): each of them, if it ended now, would be a
node as promised, at the path that comes next in the one around it.

Key definitions: `Node.Promised`, `Node.WellParsed`, `Yaml.Container.Sound`,
`Yaml.Stacked`, `Yaml.TreeBuilder.Consistent`.
Key theorems: `Yaml.Container.Sound.add`, `Yaml.TreeBuilder.receive_consistent`,
`Yaml.wellParsed_of_buildTree`, `wellParsed_of_load`.
-/
import TypedConfig.Json.Document
import TypedConfig.Proofs.Entries
import TypedConfig.Proofs.Node
import TypedConfig.Proofs.Yaml.EventTree
import TypedConfig.Proofs.Yaml.ScalarType

namespace TypedConfig

namespace Node

/-- A double is finite, said of the node without its parts. -/
def FiniteDouble : Node → Prop
  | .double value _ => value.isFinite = true
  | _ => True

/-- What a parser promises of each node of a tree that it read from `source`. -/
structure Promised (source : String) (node : Node) : Prop where
  defined : node.isDefined = true
  located : ∃ line column, node.position = .at line column source
  childPaths : node.ChildPaths
  distinctKeys : node.DistinctKeys
  finite : node.FiniteDouble

/-- What a parser promises of a tree that it read from `source`. -/
structure WellParsed (source : String) (root : Node) : Prop where
  path : root.path? = some rootPath
  nodes : root.Everywhere (Promised source)

end Node

namespace Yaml

open Node

variable {source : String} {c : Container} {node : Node}

theorem Mark.exists_position (source : String) (mark : Mark) :
    ∃ line column, mark.position source = .at line column source := ⟨_, _, rfl⟩

/-! ### Scalars -/

theorem promised_string (text : String) (mark : Mark) (path : String) :
    Promised source (.string text ⟨mark.position source, path⟩) :=
  ⟨rfl, mark.exists_position source, trivial, trivial, trivial⟩

theorem promised_plainNode (text : String) (mark : Mark) (path : String) :
    Promised source (plainNode text ⟨mark.position source, path⟩) := by
  have htyped := plainNode_typed text ⟨mark.position source, path⟩
  generalize plainNode text ⟨mark.position source, path⟩ = node at htyped ⊢
  cases htyped with
  | double hw h =>
    exact ⟨rfl, mark.exists_position source, trivial, trivial, (readFinite_eq_some_iff.mp h).2.1⟩
  | large hw h => exact promised_string text mark path
  | string hw hd ht hn => exact promised_string text mark path
  | _ => exact ⟨rfl, mark.exists_position source, trivial, trivial, trivial⟩

theorem promised_scalarNode (style : ScalarStyle) (text : String) (mark : Mark)
    (path : String) :
    Promised source (EventTree.scalarNode style text ⟨mark.position source, path⟩) := by
  unfold EventTree.scalarNode
  split
  · exact promised_plainNode text mark path
  · exact promised_string text mark path

/-- A scalar has a path and no children. -/
theorem scalarNode_facts (style : ScalarStyle) (text : String) (place : Place) :
    (EventTree.scalarNode style text place).path? = some place.path ∧
      (EventTree.scalarNode style text place).children = [] := by
  unfold EventTree.scalarNode plainNode
  repeat' split
  all_goals exact ⟨rfl, rfl⟩

/-! ### Open containers -/

namespace Container

/-- A key that waits for its value is none of those that came before. -/
def KeyIsNew : Container → Prop
  | .mapping _ entries (some key) => key ∉ Entries.keys entries
  | _ => True

/-- The container, if it ended now, would be a tree as promised, and the key that waits is
new. -/
structure Sound (source : String) (c : Container) : Prop where
  nodes : c.node.Everywhere (Promised source)
  keyIsNew : c.KeyIsNew

/-- Adding a node that is as promised, at the path that comes next, keeps the container
sound. -/
theorem Sound.add (h : c.Sound source) (hn : node.Everywhere (Promised source))
    (hp : node.path? = some c.nextPath) : (c.add node).Sound source := by
  cases c with
  | sequence place elements =>
    obtain ⟨hself, hchildren⟩ := everywhere_iff.mp h.nodes
    refine ⟨everywhere_iff.mpr ⟨⟨rfl, hself.located, ?_, trivial, trivial⟩, ?_⟩, trivial⟩
    · intro i child hi
      rw [List.reverse_cons] at hi
      rcases Nat.lt_trichotomy i elements.reverse.length with hlt | rfl | hgt
      · rw [List.getElem?_append_left hlt] at hi
        exact hself.childPaths i child hi
      · rw [List.getElem?_concat_length] at hi
        cases hi
        rw [hp, List.length_reverse]
        rfl
      · rw [List.getElem?_eq_none (by rw [List.length_append]; exact hgt)] at hi
        cases hi
    · intro child hc
      change child ∈ (node :: elements).reverse at hc
      rw [List.reverse_cons] at hc
      rcases List.mem_append.mp hc with hc | hc
      · exact hchildren child hc
      · rw [List.mem_singleton.mp hc]
        exact hn
  | mapping place entries key? =>
    cases key? with
    | none => exact h
    | some key =>
      have hadd : entries.insert key node = entries ++ [(key, node)] :=
        Entries.insert_of_not_mem h.keyIsNew
      obtain ⟨hself, hchildren⟩ := everywhere_iff.mp h.nodes
      refine ⟨everywhere_iff.mpr ⟨⟨rfl, hself.located, ?_, ?_, trivial⟩, ?_⟩, trivial⟩
      · intro e he
        rw [hadd] at he
        rcases List.mem_append.mp he with he | he
        · exact hself.childPaths e he
        · rw [List.mem_singleton.mp he]
          exact hp
      · exact Entries.keys_insert_nodup hself.distinctKeys
      · intro child hc
        obtain ⟨e, he, rfl⟩ := List.mem_map.mp hc
        rw [hadd] at he
        rcases List.mem_append.mp he with he | he
        · exact hchildren e.2 (List.mem_map.mpr ⟨e, he, rfl⟩)
        · rw [List.mem_singleton.mp he]
          exact hn

theorem sound_sequence (mark : Mark) (path : String) :
    (sequence ⟨mark.position source, path⟩ []).Sound source :=
  ⟨everywhere_of_no_children rfl
    ⟨rfl, mark.exists_position source, (fun _ _ h => nomatch h), trivial, trivial⟩, trivial⟩

theorem sound_mapping (mark : Mark) (path : String) :
    (mapping ⟨mark.position source, path⟩ [] none).Sound source :=
  ⟨everywhere_of_no_children rfl
    ⟨rfl, mark.exists_position source, (fun _ h => nomatch h), List.nodup_nil, trivial⟩, trivial⟩

theorem path?_add (c : Container) (node : Node) : (c.add node).node.path? = c.node.path? := by
  cases c with
  | sequence place elements => rfl
  | mapping place entries key? => cases key? <;> rfl

end Container

/-- The path of what comes next inside the containers, the innermost of which is first. -/
def pathInside : List Container → String
  | c :: _ => c.nextPath
  | [] => rootPath

/-- The containers are sound, each at the path that comes next inside the ones around
it. -/
inductive Stacked (source : String) : List Container → Prop
  | nil : Stacked source []
  | cons {c : Container} {outer : List Container} (h : Stacked source outer)
      (hc : c.Sound source) (hp : c.node.path? = some (pathInside outer)) :
      Stacked source (c :: outer)

namespace TreeBuilder

/-- What holds of the builder of a source at all times. -/
structure Consistent (source : String) (b : TreeBuilder) : Prop where
  source_eq : b.source = source
  stacked : Stacked source b.unfinished
  root : ∀ root, b.root? = some root → root.WellParsed source

variable {b : TreeBuilder}

theorem start_consistent (source : String) : (start source).Consistent source :=
  ⟨rfl, .nil, fun _ h => nomatch h⟩

theorem nextPlace_eq (h : b.source = source) (mark : Mark) :
    b.nextPlace mark = ⟨mark.position source, pathInside b.unfinished⟩ := by
  subst h
  unfold nextPlace pathInside
  cases b.unfinished <;> rfl

theorem stop_consistent (h : b.Consistent source) (error : ParseError) :
    (b.stop error).Consistent source :=
  ⟨h.source_eq, h.stacked, h.root⟩

/-! ### Single events -/

/-- A finished node that is as promised goes where it belongs. -/
theorem complete_consistent (h : b.Consistent source) (hn : node.Everywhere (Promised source))
    (hp : node.path? = some (pathInside b.unfinished)) :
    (b.complete node).Consistent source := by
  obtain ⟨source', unfinished, root?, error?⟩ := b
  cases h.stacked with
  | nil =>
    refine ⟨h.source_eq, .nil, fun root hr => ?_⟩
    rcases Option.or_eq_some_iff.mp hr with hr | ⟨-, hr⟩
    · exact h.root root hr
    · cases hr
      exact ⟨hp, hn⟩
  | @cons c outer ho hc hpc =>
    exact ⟨h.source_eq, .cons ho (hc.add hn hp) ((c.path?_add node).trans hpc), h.root⟩

theorem receiveScalar_consistent (h : b.Consistent source) (mark : Mark)
    (style : ScalarStyle) (text : String) :
    (b.receiveScalar mark style text).Consistent source := by
  unfold receiveScalar
  split
  · rename_i place entries outer hu
    split
    · exact stop_consistent h _
    · rename_i hl
      rw [Entries.isSome_lookup_iff] at hl
      have hstacked := h.stacked
      rw [hu] at hstacked
      cases hstacked with
      | cons ho hc hp => exact ⟨h.source_eq, .cons ho ⟨hc.nodes, hl⟩ hp, h.root⟩
  · rw [nextPlace_eq h.source_eq]
    obtain ⟨hp, h0⟩ := scalarNode_facts style text ⟨mark.position source, pathInside b.unfinished⟩
    exact complete_consistent h
      (everywhere_of_no_children h0 (promised_scalarNode style text mark _)) hp

/-- A container that begins holds nothing yet. -/
theorem receiveStart_consistent (h : b.Consistent source) (mark : Mark)
    {container : Place → Container}
    (hc : ∀ path, (container ⟨mark.position source, path⟩).Sound source ∧
      (container ⟨mark.position source, path⟩).node.path? = some path) :
    (b.receiveStart mark container).Consistent source := by
  unfold receiveStart
  split
  · exact stop_consistent h _
  · rw [nextPlace_eq h.source_eq]
    exact ⟨h.source_eq, .cons h.stacked (hc _).1 (hc _).2, h.root⟩

theorem receiveEnd_consistent (h : b.Consistent source) : b.receiveEnd.Consistent source := by
  obtain ⟨source', unfinished, root?, error?⟩ := b
  cases h.stacked with
  | nil => exact h
  | @cons c outer ho hc hp =>
    have houter : Consistent source ⟨source', outer, root?, error?⟩ := ⟨h.source_eq, ho, h.root⟩
    exact complete_consistent houter hc.nodes hp

/-- Every event leaves the builder consistent, in whatever order events come. -/
theorem receive_consistent (h : b.Consistent source) (event : Event) :
    (b.receive event).Consistent source := by
  unfold receive
  split
  · exact h
  · exact receiveScalar_consistent h _ _ _
  · exact stop_consistent h _
  · exact receiveStart_consistent h _ fun path => ⟨Container.sound_sequence _ path, rfl⟩
  · exact receiveStart_consistent h _ fun path => ⟨Container.sound_mapping _ path, rfl⟩
  · exact receiveEnd_consistent h
  · exact receiveEnd_consistent h
  all_goals exact h

/-! ### Runs -/

theorem foldl_consistent : ∀ (events : List Event) {b : TreeBuilder}, b.Consistent source →
    (events.foldl receive b).Consistent source
  | [], _, h => h
  | event :: events, _, h => foldl_consistent events (receive_consistent h event)

end TreeBuilder

/-- A tree built from any events at all is as promised. -/
theorem wellParsed_of_buildTree {events : List Event} {root : Node}
    (h : buildTree source events = .ok root) : root.WellParsed source := by
  have hb := TreeBuilder.foldl_consistent events (TreeBuilder.start_consistent source)
  unfold buildTree TreeBuilder.finish at h
  split at h
  · cases h
  · rename_i root' he hr
    cases h
    exact hb.root _ hr
  · cases h

/-- So is a tree read from a YAML text. -/
theorem wellParsed_of_parse {text : String} {root : Node} (h : parse text source = .ok root) :
    root.WellParsed source := by
  unfold parse at h
  split at h
  · cases h
  · exact wellParsed_of_buildTree h

end Yaml

namespace Json

/-- A JSON text is read by the YAML parser, once nothing in it is objected to. -/
theorem exists_yaml_of_parse {text source : String} {root : Node}
    (h : parse text source = .ok root) : ∃ text', Yaml.parse text' source = .ok root := by
  unfold parse at h
  split at h
  · cases h
  · unfold parseBare at h
    split at h
    · cases h
    · split at h
      · cases h
      · exact ⟨_, h⟩

end Json

/-! ### What is read -/

theorem exists_ok_of_isOk {ε α : Type} : ∀ {r : Except ε α}, r.isOk = true → ∃ a, r = .ok a
  | .ok a, _ => ⟨a, rfl⟩

/-- Whatever events the builder of trees is handed, well nested or not, and whatever text of
either format is loaded: a tree that comes out is as promised. -/
theorem wellParsed_of_load (source : String) :
    (∀ (events : List Yaml.Event) (root : Node),
        Yaml.buildTree source events = .ok root → root.WellParsed source) ∧
      ∀ parser ∈ [Yaml.documents, Json.documents], ∀ (text : String) (root : Node),
        parser.load text source = .ok root → root.WellParsed source := by
  refine ⟨fun events root h => Yaml.wellParsed_of_buildTree h, fun parser hp text root h => ?_⟩
  rcases List.mem_cons.mp hp with rfl | hp
  · exact Yaml.wellParsed_of_parse h
  · rw [List.mem_singleton.mp hp] at h
    obtain ⟨text', h'⟩ := Json.exists_yaml_of_parse h
    exact Yaml.wellParsed_of_parse h'

/-- Events that do not nest: ends that nothing began, a key without a value and a second
root. -/
def strayEvents : List Yaml.Event :=
  [.sequenceEnd, .mappingStart ⟨0, 1, 0⟩, .scalar ⟨0, 1, 0⟩ .plain "ports",
    .sequenceStart ⟨7, 1, 7⟩, .scalar ⟨8, 1, 8⟩ .plain "80", .scalar ⟨12, 1, 12⟩ .plain "0.5",
    .mappingEnd, .scalar ⟨17, 2, 0⟩ .plain "host", .sequenceEnd, .mappingEnd,
    .scalar ⟨22, 3, 0⟩ .plain "more"]

theorem wellParsed_samples :
    (∃ root, Yaml.buildTree "app.yml" strayEvents = .ok root ∧ root.WellParsed "app.yml") ∧
      (∃ root, Yaml.documents.load "ports: [80, 0.5]\nhost: ~" "app.yml" = .ok root ∧
        root.WellParsed "app.yml") ∧
      ∃ root, Json.documents.load "\x7b\"ports\": [80, 0.5]\x7d" "app.json" = .ok root ∧
        root.WellParsed "app.json" := by
  have hyaml : (Yaml.documents.load "ports: [80, 0.5]\nhost: ~" "app.yml").isOk = true := by
    decide +kernel
  have hjson : (Json.documents.load "\x7b\"ports\": [80, 0.5]\x7d" "app.json").isOk = true := by
    decide +kernel
  obtain ⟨root, hroot⟩ := exists_ok_of_isOk hyaml
  obtain ⟨root', hroot'⟩ := exists_ok_of_isOk hjson
  exact ⟨⟨_, rfl, (wellParsed_of_load "app.yml").1 strayEvents _ rfl⟩,
    ⟨root, hroot, (wellParsed_of_load "app.yml").2 _ List.mem_cons_self _ _ hroot⟩,
    ⟨root', hroot', (wellParsed_of_load "app.json").2 _
      (List.mem_cons_of_mem _ List.mem_cons_self) _ _ hroot'⟩⟩

end TypedConfig
