/-
# Failures tell where they are

Every failure of a decoding that names a path names that of a node of the tree that
was decoded, with the position of the same node; and the deeper a failure is inside
another, the further its path goes on (`decode_soundIn`). It makes no difference
that substitutions put copies in the place of nodes and that texts are taken apart
at their commas: a copy is where the node is, and so is each part of a text.

The induction is on the shape, for all nodes at once: each rule of `Refusal` speaks
of the node that it is about (`Refusal.about`), and what it gathers is found by the
rules for parts of that node, whose places are places of the tree (`Node.Covers`).

Key definitions: `Node.Covers`, `Failure.OfText`.
Key theorems: `Refusal.about`, `Context.bindField_fails`, `Refusal.soundIn`,
`Refusal.ofText`, `Context.decode_soundIn`.
-/
import TypedConfig.Proofs.Decoding.Accumulation
import TypedConfig.Proofs.Failure
import TypedConfig.Proofs.Substitution

namespace TypedConfig

open Substitution

variable {α : Type} {ctx : Context α} {lookups : List (String → Option String)}

/-! ### Nodes that stand for parts of a tree -/

namespace Node

/-- The node stands for a part of the tree: it is placed, at places of the tree only. -/
structure Covers (root node : Node) : Prop where
  placed : node.Placed
  places : ∀ place, node.HasPlace place → root.HasPlace place

variable {root node part : Node}

theorem covers_child (h : root.Placed) (hm : part ∈ root.children) : root.Covers part :=
  ⟨h.child hm, fun _ => .of_child hm⟩

theorem placed_string (value : String) (place : Place) : (Node.string value place).Placed :=
  ⟨⟨place.path, rfl⟩, everywhere_of_no_children rfl trivial⟩

theorem hasPlace_string {value : String} {place place' : Place} :
    (Node.string value place).HasPlace place' ↔ place' = place := by
  constructor
  · rintro ⟨node, hn, hp⟩
    rw [Part.eq_of_no_children rfl hn] at hp
    exact (Option.some.inj hp).symm
  · rintro rfl
    exact ⟨_, .refl, rfl⟩

/-- Whatever else a text says, it stands where it stood. -/
theorem covers_string (value value' : String) (place : Place) :
    (Node.string value place).Covers (.string value' place) :=
  ⟨placed_string value' place, fun _ h => hasPlace_string.mpr (hasPlace_string.mp h)⟩

/-- What substitutions put in the place of a node stands for the same part. -/
theorem Covers.preprocess (hpre : ctx.preprocessors = lookups.map Substitution.preprocessor)
    (h : root.Covers node) : root.Covers (ctx.preprocess node) := by
  rw [Context.preprocess, hpre]
  change root.Covers (applyAll lookups node)
  cases node with
  | string value place =>
    obtain ⟨value', hv⟩ := applyAll_string place lookups value
    have hcopy := covers_string value value' place
    rw [hv]
    exact ⟨hcopy.placed, fun place' hp => h.places place' (hcopy.places place' hp)⟩
  | _ =>
    rw [applyAll_no_text (by simp)]
    exact h

end Node

namespace Context

variable {root node : Node}

/-- Every element that a node offers to a collection stands for a part of it. -/
theorem covers_element (hpre : ctx.preprocessors = lookups.map Substitution.preprocessor)
    (hroot : root.Placed) {nodes : List Node} (h : ctx.elements? root = some nodes)
    (hn : node ∈ nodes) : root.Covers node := by
  cases root with
  | array elements place =>
    cases h
    obtain ⟨element, he, rfl⟩ := List.mem_map.mp hn
    exact (Node.covers_child hroot he).preprocess hpre
  | string value place =>
    cases h
    obtain ⟨piece, -, rfl⟩ := List.mem_map.mp hn
    exact Node.covers_string value _ place
  | _ => cases h

/-- A field that fails is missing, null where it must not be, or refused as what it is; in
the last two cases the node of the field stands for a part of that of the record. -/
theorem bindField_fails (hreg : ctx.registry = Registry.defaults)
    (hpre : ctx.preprocessors = lookups.map Substitution.preprocessor) (hroot : root.Placed)
    {field : ShapeField α} {site : Site} {failures : Failures}
    (h : ctx.bindField field (ctx.decodeAt field.shape) site root = .error failures) :
    failures = .one .missingValue ∨ ∃ node failure, failures = .one failure ∧
      root.Covers node ∧ (failure = .ofNull node ∨ Refusal ctx site field.shape node failure) := by
  have hcovers : ctx.preprocess (ctx.resolveField root field.name) = .undefined ∨
      root.Covers (ctx.preprocess (ctx.resolveField root field.name)) := by
    rcases ctx.resolveField_undefined_or_child root field.name with hno | hm
    · left
      rw [hno, Context.preprocess, hpre]
      exact applyAll_no_text (by simp) lookups
    · exact Or.inr ((Node.covers_child hroot hm).preprocess hpre)
  rcases hcovers with hno | hcovers
  · rw [bindField, hno] at h
    left
    cases hd : field.default?.isSome <;> cases hn : field.shape.nullable <;>
      simp only [hd, hn, if_true] at h <;> cases h
    rfl
  · right
    rcases (ctx.preprocess (ctx.resolveField root field.name)).absent_or_present with
      hc | ⟨place, hc⟩ | hp
    · obtain ⟨path, hpath⟩ := hcovers.placed.path
      rw [hc] at hpath
      cases hpath
    · rw [bindField, hc] at h
      rw [hc] at hcovers
      cases hn : field.shape.nullable <;> simp only [hn, if_true] at h <;> cases h
      exact ⟨_, _, rfl, hcovers, Or.inl rfl⟩
    · rw [bindField_present rfl hp, Outcome.map_eq_error_iff] at h
      obtain ⟨failure, rfl, hrefusal⟩ := Refusal.exists_refusal hreg h
      exact ⟨_, failure, rfl, hcovers, Or.inr hrefusal⟩

end Context

/-! ### One rule -/

theorem LeafFault.about {text : String} {node : Node} {failure : Failure}
    (h : LeafFault text node failure) (hn : node.Placed) : failure.About node := by
  cases h with
  | kind => exact .of_node hn rfl rfl
  | value => exact .of_node hn rfl rfl
  | foreign => exact Or.inl rfl

theorem LeafFault.children?_eq {text : String} {node : Node} {failure : Failure}
    (h : LeafFault text node failure) : failure.children? = none := by
  cases h <;> rfl

namespace Refusal

open Context

variable {shape : Shape α} {site : Site} {root node : Node} {failure : Failure}

/-- Every rule speaks of the node that is decoded, or of none. -/
theorem about (h : Refusal ctx site shape node failure) (hn : node.Placed) :
    failure.About node := by
  cases h with
  | foreign hs => exact Or.inl rfl
  | missing hs hr hnullable => exact Or.inl rfl
  | null hs hnullable => exact Or.inr ⟨rfl, Or.inr rfl⟩
  | leaf hs hp h =>
    obtain ⟨failure', he, hfault⟩ := decodeLeaf_fails h
    cases he
    exact hfault.about hn
  | foreignElements hp he => exact Or.inl rfl
  | noElements hp he h => exact .of_node hn rfl rfl
  | elements he hnodes h => exact Or.inr ⟨by rw [hn.path?_eq]; rfl, Or.inl rfl⟩
  | foreignValues hv => exact Or.inl rfl
  | noEntries hp h => exact .of_node hn rfl rfl
  | values hv h => exact Or.inr ⟨rfl, Or.inl rfl⟩
  | noFields hp h => exact .of_node hn rfl rfl
  | fields ho h => exact .of_node hn rfl rfl
  | construction ho h he => exact Or.inl rfl

/-- A failure among those of a decoding is found by a rule. -/
theorem of_mem_failures (hreg : ctx.registry = Registry.defaults)
    (h : failure ∈ (ctx.decodeAt shape site node).failures) :
    Refusal ctx site shape node failure := by
  cases ho : ctx.decodeAt shape site node with
  | ok value =>
    rw [ho] at h
    cases h
  | error failures =>
    obtain ⟨failure', rfl, hrefusal⟩ := exists_refusal hreg ho
    rw [ho] at h
    rw [List.mem_singleton.mp h]
    exact hrefusal

theorem soundIn_of_covers (hshape : ∀ site node failure, node.Placed →
      Refusal ctx site shape node failure → failure.SoundIn node)
    (hcovers : root.Covers node) (h : Refusal ctx site shape node failure) :
    failure.SoundIn root :=
  (hshape site node failure hcovers.placed h).mono hcovers.places

/-! ### All levels -/

/-- What the rules find in a placed tree is sound there. -/
theorem soundIn (hreg : ctx.registry = Registry.defaults)
    (hpre : ctx.preprocessors = lookups.map Substitution.preprocessor) (shape : Shape α) :
    ∀ (site : Site) (root : Node) (failure : Failure), root.Placed →
      Refusal ctx site shape root failure → failure.SoundIn root := by
  induction shape using Shape.induction with
  | leaf kind nullable =>
    intro site root failure hroot h
    refine .of_no_parts hroot (h.about hroot) ?_
    cases h with
    | foreign hs => rfl
    | missing hs hr hn => rfl
    | null hs hn => rfl
    | leaf hs hpresent h =>
      obtain ⟨failure', he, hfault⟩ := decodeLeaf_fails h
      cases he
      exact hfault.children?_eq
  | collection kind element nullable ih =>
    intro site root failure hroot h
    refine .of_parts hroot (h.about hroot) fun inner hi => ?_
    obtain ⟨children, hc, hm⟩ := hi
    cases h with
    | elements he hn h =>
      cases hc
      rw [h] at hm
      obtain ⟨failures, hf, hm⟩ := List.mem_flatten.mp hm
      obtain ⟨i, hi, rfl⟩ := List.mem_mapIdx.mp hf
      exact soundIn_of_covers ih (covers_element hpre hroot hn (List.getElem_mem hi))
        (of_mem_failures hreg hm)
    | _ => cases hc
  | map value nullable ih =>
    intro site root failure hroot h
    refine .of_parts hroot (h.about hroot) fun inner hi => ?_
    obtain ⟨children, hc, hm⟩ := hi
    cases h with
    | values hv h =>
      cases hc
      rw [h] at hm
      obtain ⟨failures, hf, hm⟩ := List.mem_flatten.mp hm
      obtain ⟨i, hi, rfl⟩ := List.mem_mapIdx.mp hf
      obtain ⟨failures, ho, rfl⟩ := Outcome.mem_failuresUnder.mp hm
      obtain ⟨failure', rfl, hrefusal⟩ := exists_refusal hreg ho
      have hchild := Node.covers_child hroot (List.mem_map.mpr ⟨_, List.getElem_mem hi, rfl⟩)
      exact (soundIn_of_covers ih (hchild.preprocess hpre) hrefusal).field hroot _
    | _ => cases hc
  | record name fields constructor? nullable ih =>
    intro site root failure hroot h
    refine .of_parts hroot (h.about hroot) fun inner hi => ?_
    obtain ⟨children, hc, hm⟩ := hi
    cases h with
    | fields ho h =>
      cases hc
      rw [h] at hm
      obtain ⟨site', field, hf, failures, ho, rfl⟩ := exists_field_of_mem hm
      rcases bindField_fails hreg hpre hroot ho with
        rfl | ⟨node, failure', rfl, hcovers, rfl | hrefusal⟩
      · exact (Failure.SoundIn.of_no_parts hroot (Or.inl rfl) rfl).field hroot _
      · have hnull : (Failure.ofNull node).SoundIn node :=
          .of_no_parts hcovers.placed (.of_node hcovers.placed rfl rfl) rfl
        exact (hnull.mono hcovers.places).field hroot _
      · exact (soundIn_of_covers (ih field hf) hcovers hrefusal).field hroot _
    | _ => cases hc

/-! ### Texts -/

/-- What the rules find in a text itself, whatever the shape. -/
theorem ofText_self {value : String} {place : Place}
    (h : Refusal ctx site shape (.string value place) failure) : failure.OfText place := by
  cases h with
  | foreign hs => exact Or.inl ⟨_, rfl⟩
  | leaf hs hp h =>
    obtain ⟨failure', he, hfault⟩ := decodeLeaf_fails h
    cases he
    cases hfault with
    | kind => exact Or.inr (Or.inr ⟨rfl, rfl⟩)
    | value => exact Or.inr (Or.inr ⟨rfl, rfl⟩)
    | foreign => exact Or.inl ⟨_, rfl⟩
  | foreignElements hp he => exact Or.inl ⟨_, rfl⟩
  | noElements hp he h => exact Or.inr (Or.inr ⟨rfl, rfl⟩)
  | elements he hnodes h => exact Or.inr (Or.inl ⟨_, _, rfl⟩)
  | noEntries hp h => exact Or.inr (Or.inr ⟨rfl, rfl⟩)
  | noFields hp h => exact Or.inr (Or.inr ⟨rfl, rfl⟩)
  | fields ho h => cases ho
  | construction ho h he => cases ho

/-- What a failure of a text holds is found in a text at the same place. -/
theorem part_of_text (hreg : ctx.registry = Registry.defaults) {value : String} {place : Place}
    {inner : Failure} (h : Refusal ctx site shape (.string value place) failure)
    (hi : failure.Holds inner) :
    ∃ shape' site' value', Refusal ctx site' shape' (.string value' place) inner := by
  obtain ⟨children, hc, hm⟩ := hi
  cases h with
  | leaf hs hp h =>
    obtain ⟨failure', he, hfault⟩ := decodeLeaf_fails h
    cases he
    rw [hfault.children?_eq] at hc
    cases hc
  | @elements kind element nullable _ nodes _ he hnodes h =>
    cases hc
    cases hnodes
    rw [h] at hm
    obtain ⟨failures, hf, hm⟩ := List.mem_flatten.mp hm
    obtain ⟨i, hlt, rfl⟩ := List.mem_mapIdx.mp hf
    rw [List.getElem_map] at hm
    exact ⟨_, _, _, of_mem_failures hreg hm⟩
  | fields ho h => cases ho
  | _ => cases hc

/-- What the rules find in a text and in the parts between its commas, at any depth. -/
theorem ofText (hreg : ctx.registry = Registry.defaults) {value : String} {place : Place}
    (h : Refusal ctx site shape (.string value place) failure) {inner : Failure}
    (hi : failure.Part inner) : inner.OfText place := by
  have hinner : ∃ shape' site' value', Refusal ctx site' shape' (.string value' place) inner := by
    induction hi with
    | refl => exact ⟨_, _, _, h⟩
    | tail _ hm ih =>
      obtain ⟨_, _, _, h'⟩ := ih
      exact part_of_text hreg h' hm
  obtain ⟨_, _, _, h'⟩ := hinner
  exact ofText_self h'

end Refusal

namespace Context

/-- **Failures tell where they are.** Where every node of a tree is at the path that follows
from that of its parent, all failures of a decoding, at any depth, name paths of nodes of
the tree with the positions of the same nodes, and a failure inside another a path that goes
on from that of the other. A text that is taken apart for a collection is what the failures
of its parts name. -/
theorem decode_soundIn (hreg : ctx.registry = Registry.defaults)
    (hpre : ctx.preprocessors = lookups.map Substitution.preprocessor) {root : Node}
    {path : String} (hpath : root.path? = some path) (hchildren : root.Everywhere Node.ChildPaths)
    (shape : Shape α) :
    (∀ failures, ctx.decode root shape = .error failures →
        ∀ failure ∈ failures.toList, failure.SoundIn root) ∧
      ∀ (kind : Collection) (element : Shape α) (nullable : Bool) (site : Site) (value : String)
        (place : Place) (failures : Failures),
        ctx.decodeAt (.collection kind element nullable) site (.string value place) =
            .error failures →
          ∀ failure ∈ failures.toList, ∀ inner, failure.Part inner → inner.OfText place := by
  constructor
  · intro failures h failure hm
    rw [decode_eq_decodeAt] at h
    obtain ⟨failure', rfl, hrefusal⟩ := Refusal.exists_refusal hreg h
    rw [List.mem_singleton.mp hm]
    exact Refusal.soundIn hreg hpre shape [] root failure' ⟨⟨path, hpath⟩, hchildren⟩ hrefusal
  · intro kind element nullable site value place failures h failure hm inner hi
    obtain ⟨failure', rfl, hrefusal⟩ := Refusal.exists_refusal hreg h
    rw [List.mem_singleton.mp hm] at hi
    exact Refusal.ofText hreg hrefusal hi

/-- The sizes are written as one text, and the name is null. -/
def textNode : Node :=
  .map [("sizes", .string "1, two" ⟨.at 0 7 "app.yml", "<root>.sizes"⟩),
    ("name", .null ⟨.at 1 6 "app.yml", "<root>.name"⟩)] ⟨.at 0 0 "app.yml", "<root>"⟩

/-- Both are told, and the second size is where the text is. -/
def textFailure : Failure :=
  .record "Plain" (.at 0 0 "app.yml") "<root>"
    ⟨.field "sizes" (.one (.elements "List" "<root>.sizes"
      (.one (.badValue "Long" "two" "<root>.sizes" (.at 0 7 "app.yml"))))),
      [.field "name" (.one (.nullNotAllowed "<root>.name" (.at 1 6 "app.yml")))]⟩

theorem textFailure_soundIn :
    (ofRegistry (α := Unit) .defaults).registry = .defaults ∧
      (ofRegistry (α := Unit) .defaults).preprocessors = [].map Substitution.preprocessor ∧
      textNode.path? = some rootPath ∧ textNode.Everywhere Node.ChildPaths ∧
      (ofRegistry .defaults).decode textNode plainShape = .fail textFailure ∧
      textFailure.SoundIn textNode := by
  have hreg : (ofRegistry (α := Unit) .defaults).registry = .defaults := rfl
  have hpre : (ofRegistry (α := Unit) .defaults).preprocessors =
      [].map Substitution.preprocessor := rfl
  have hchildren : textNode.Everywhere Node.ChildPaths := by
    refine Node.everywhere_iff.mpr ⟨fun e he => ?_, fun child hc => ?_⟩
    · rcases List.mem_cons.mp he with rfl | he
      · rfl
      · rw [List.mem_singleton.mp he]
        rfl
    · rcases List.mem_cons.mp hc with rfl | hc
      · exact Node.everywhere_of_no_children rfl trivial
      · rw [List.mem_singleton.mp hc]
        exact Node.everywhere_of_no_children rfl trivial
  have hpath : textNode.path? = some rootPath := rfl
  have hdecode : (ofRegistry .defaults).decode textNode plainShape = .fail textFailure := rfl
  exact ⟨hreg, hpre, hpath, hchildren, hdecode,
    (decode_soundIn hreg hpre hpath hchildren plainShape).1 _ hdecode textFailure
      List.mem_cons_self⟩

end Context
end TypedConfig
