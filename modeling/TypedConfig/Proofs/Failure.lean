/-
# Where failures are

A failure may hold others, and these others again (`Failure.Part`). All of them
are sound in a tree if each that names a path names that of a node of the tree,
with the position of the same node if it has one, and if the path of a failure is
a prefix of every path that is named inside it (`Failure.SoundIn`).

Soundness is shown one level at a time: of a failure that speaks of the root, from
what it holds (`Failure.SoundIn.of_parts`).

Key definitions: `Node.HasPlace`, `Node.Placed`, `Failure.Part`, `Failure.Within`,
`Failure.About`, `Failure.SoundIn`, `Failure.OfText`.
Key theorems: `Failure.SoundIn.of_parts`, `Failure.SoundIn.mono`.
-/
import TypedConfig.Failure
import TypedConfig.Proofs.Node

namespace TypedConfig

namespace Node

/-- Some node of the tree is at the place. -/
def HasPlace (root : Node) (place : Place) : Prop :=
  ∃ node, root.Part node ∧ node.place? = some place

/-- Every node of the tree has a path, which follows from that of its parent. -/
structure Placed (root : Node) : Prop where
  path : ∃ path, root.path? = some path
  childPaths : root.Everywhere ChildPaths

variable {root part : Node}

theorem Placed.path?_eq (h : root.Placed) : root.path? = some root.pathOrRoot := by
  obtain ⟨path, hp⟩ := h.path
  rw [pathOrRoot, hp, Option.getD_some]

theorem Placed.child (h : root.Placed) (hm : part ∈ root.children) : part.Placed := by
  obtain ⟨path, hp⟩ := h.path
  obtain ⟨hself, hchildren⟩ := everywhere_iff.mp h.childPaths
  obtain ⟨below, hb, -⟩ := hself.path_of_parent hp hm
  exact ⟨⟨below, hb⟩, hchildren part hm⟩

theorem HasPlace.of_child (hm : part ∈ root.children) {place : Place}
    (h : part.HasPlace place) : root.HasPlace place := by
  obtain ⟨node, hn, hp⟩ := h
  exact ⟨node, .head hm hn, hp⟩

/-- The path of a place in the tree goes on from that of the root. -/
theorem Placed.prefix_of_hasPlace (h : root.Placed) {path : String}
    (hp : root.path? = some path) {place : Place} (hplace : root.HasPlace place) :
    path.toList <+: place.path.toList := by
  obtain ⟨node, hn, hnp⟩ := hplace
  obtain ⟨below, hb, hprefix⟩ := Part.path_of_root h.childPaths hp hn
  rw [path?, hnp, Option.map_some] at hb
  cases hb
  exact hprefix

end Node

namespace Failure

/-- The failure holds the other one among those of its parts. -/
def Holds (outer inner : Failure) : Prop :=
  ∃ children, outer.children? = some children ∧ inner ∈ children.toList

/-- The failure is the other one, or that is somewhere inside it. -/
abbrev Part (failure inner : Failure) : Prop := Relation.ReflTransGen Holds failure inner

/-- The other failure is somewhere inside the failure. -/
abbrev Within (outer inner : Failure) : Prop := Relation.TransGen Holds outer inner

/-- If the failure names a path, it is that of a node of the tree, and its position is that
of the same node. -/
def LocatedIn (root : Node) (failure : Failure) : Prop :=
  ∀ path, failure.path? = some path → ∃ place, root.HasPlace place ∧ place.path = path ∧
    ∀ position, failure.position? = some position → place.position = position

/-- All failures at any depth are located in the tree, and the path of each is a prefix of
those inside it. -/
structure SoundIn (root : Node) (failure : Failure) : Prop where
  located : ∀ inner, failure.Part inner → inner.LocatedIn root
  nested : ∀ outer inner, failure.Part outer → outer.Within inner →
    ∀ above below, outer.path? = some above → inner.path? = some below →
      above.toList <+: below.toList

/-- The failure itself, whatever it holds, speaks of the node or of none. -/
def About (node : Node) (failure : Failure) : Prop :=
  failure.path? = none ∨ failure.path? = node.path? ∧
    (failure.position? = none ∨ failure.position? = some node.position)

/-- What the failure says is said of a text at the place: it names the path and the position,
unless it gathers others and so names the path alone, or no decoder was to be found. -/
def OfText (place : Place) (failure : Failure) : Prop :=
  (∃ shape, failure = .noDecoder shape) ∨
    (∃ collection children, failure = .elements collection place.path children) ∨
    failure.path? = some place.path ∧ failure.position? = some place.position

variable {root node : Node} {failure : Failure}

/-- A failure that names a node by its path and position speaks of it. -/
theorem About.of_node (h : node.Placed) (hpath : failure.path? = some node.pathOrRoot)
    (hposition : failure.position? = some node.position) : failure.About node :=
  Or.inr ⟨hpath.trans h.path?_eq.symm, Or.inr hposition⟩

theorem About.locatedIn (h : failure.About root) : failure.LocatedIn root := by
  intro path hp
  rcases h with hno | ⟨hpath, hposition⟩
  · rw [hno] at hp
    cases hp
  · rw [hpath, Node.path?] at hp
    obtain ⟨place, hplace, rfl⟩ := Option.map_eq_some_iff.mp hp
    refine ⟨place, ⟨root, .refl, hplace⟩, rfl, fun position hpos => ?_⟩
    rcases hposition with hno | hposition
    · rw [hno] at hpos
      cases hpos
    · rw [hposition, Node.position, hplace] at hpos
      exact Option.some.inj hpos

namespace SoundIn

/-- What is sound in a tree is sound in every tree that has its places. -/
theorem mono (h : failure.SoundIn node)
    (hplaces : ∀ place, node.HasPlace place → root.HasPlace place) : failure.SoundIn root := by
  refine ⟨fun inner hi path hp => ?_, h.nested⟩
  obtain ⟨place, hplace, hrest⟩ := h.located inner hi path hp
  exact ⟨place, hplaces place hplace, hrest⟩

/-- A failure that speaks of the root is sound if all that it holds is. -/
theorem of_parts (hroot : root.Placed) (ha : failure.About root)
    (hparts : ∀ inner, failure.Holds inner → inner.SoundIn root) : failure.SoundIn root := by
  have hlocated : ∀ inner, failure.Part inner → inner.LocatedIn root := by
    intro inner hi
    rcases hi.cases_head with rfl | ⟨middle, hm, hi⟩
    · exact ha.locatedIn
    · exact (hparts middle hm).located inner hi
  refine ⟨hlocated, fun outer inner ho hi above below habove hbelow => ?_⟩
  rcases ho.cases_head with rfl | ⟨middle, hm, ho⟩
  · obtain ⟨place, hplace, rfl, -⟩ := hlocated inner hi.to_reflTransGen below hbelow
    rcases ha with hno | ⟨hpath, -⟩
    · rw [hno] at habove
      cases habove
    · exact hroot.prefix_of_hasPlace (hpath ▸ habove) hplace
  · exact (hparts middle hm).nested outer inner ho hi above below habove hbelow

/-- A failure that holds no others is sound where it speaks of the root. -/
theorem of_no_parts (hroot : root.Placed) (ha : failure.About root)
    (h0 : failure.children? = none) : failure.SoundIn root := by
  refine of_parts hroot ha fun inner hi => ?_
  obtain ⟨children, hc, -⟩ := hi
  rw [h0] at hc
  cases hc

/-- The failure of a field is as sound as what it holds. -/
theorem field (hroot : root.Placed) (h : failure.SoundIn root) (name : String) :
    (Failure.field name (.one failure)).SoundIn root := by
  refine of_parts hroot (Or.inl rfl) fun inner hi => ?_
  obtain ⟨children, hc, hm⟩ := hi
  cases hc
  rw [List.mem_singleton.mp hm]
  exact h

end SoundIn
end Failure
end TypedConfig
