/-
# The nodes of a tree

The nodes of a tree are its root and, with each node, the children of it
(`Node.Part`). A property that all of them have is shown of a node from the node
itself and from each child (`Node.everywhere_iff`).

Where every child is at the path that follows from that of its parent
(`Node.ChildPaths`), each node of the tree has a path, and that of the root is a
prefix of it (`Node.Part.path_of_root`).

Key definitions: `Node.children`, `Node.Part`, `Node.Everywhere`, `Node.DistinctKeys`,
`Node.ChildPaths`.
Key theorems: `Node.everywhere_iff`, `Node.Part.path_of_root`.
-/
import Mathlib.Logic.Relation
import TypedConfig.Entries
import TypedConfig.Node

namespace TypedConfig
namespace Node

/-- The children of a node in order. -/
def children : Node → List Node
  | .map entries _ => entries.map (·.2)
  | .array elements _ => elements
  | _ => []

/-- The nodes of a tree. -/
abbrev Part (root node : Node) : Prop :=
  Relation.ReflTransGen (fun parent child => child ∈ children parent) root node

/-- All nodes of the tree have the property. -/
def Everywhere (P : Node → Prop) (root : Node) : Prop := ∀ node, root.Part node → P node

variable {P : Node → Prop} {root node : Node}

/-- A node without children is the only one of its tree. -/
theorem Part.eq_of_no_children (h0 : root.children = []) (h : root.Part node) : node = root := by
  rcases h.cases_head with rfl | ⟨child, hm, -⟩
  · rfl
  · rw [h0] at hm
    cases hm

/-- What holds everywhere in a tree holds of its root and everywhere below each child. -/
theorem everywhere_iff :
    root.Everywhere P ↔ P root ∧ ∀ child ∈ root.children, child.Everywhere P := by
  constructor
  · exact fun h => ⟨h root .refl, fun child hm n hn => h n (.head hm hn)⟩
  · rintro ⟨hself, hchildren⟩ n hn
    rcases hn.cases_head with rfl | ⟨child, hm, hn⟩
    · exact hself
    · exact hchildren child hm n hn

theorem everywhere_of_no_children (h0 : root.children = []) (h : P root) : root.Everywhere P :=
  fun _ hn => Part.eq_of_no_children h0 hn ▸ h

theorem everywhere_array_iff {elements : List Node} {place : Place} :
    (Node.array elements place).Everywhere P ↔
      P (.array elements place) ∧ ∀ element ∈ elements, element.Everywhere P :=
  everywhere_iff

theorem everywhere_map_iff {entries : List (String × Node)} {place : Place} :
    (Node.map entries place).Everywhere P ↔
      P (.map entries place) ∧ ∀ e ∈ entries, e.2.Everywhere P := by
  rw [everywhere_iff, children, List.forall_mem_map]

theorem Everywhere.self (h : root.Everywhere P) : P root := (everywhere_iff.mp h).1

theorem Everywhere.child (h : root.Everywhere P) {child : Node} (hm : child ∈ root.children) :
    child.Everywhere P := (everywhere_iff.mp h).2 child hm

/-- No key comes twice in a map, said of the node without its parts. -/
def DistinctKeys : Node → Prop
  | .map entries _ => (Entries.keys entries).Nodup
  | _ => True

/-! ### Paths -/

/-- Every child is at the path that follows from that of the node, said of the node without
its parts. -/
def ChildPaths : Node → Prop
  | .map entries place => ∀ e ∈ entries, e.2.path? = some (childPath place.path e.1)
  | .array elements place =>
    ∀ i child, elements[i]? = some child → child.path? = some (elementPath place.path i)
  | _ => True

/-- A child is somewhere below the path of its parent. -/
theorem ChildPaths.path_of_parent (hc : node.ChildPaths) {path : String}
    (hp : node.path? = some path) {child : Node} (hm : child ∈ node.children) :
    ∃ below, child.path? = some below ∧ path.toList <+: below.toList := by
  cases node with
  | map entries place =>
    obtain ⟨e, he, rfl⟩ := List.mem_map.mp hm
    cases hp
    refine ⟨_, hc e he, ?_⟩
    rw [childPath, String.append_assoc, String.toList_append]
    exact List.prefix_append _ _
  | array elements place =>
    obtain ⟨i, hi⟩ := List.mem_iff_getElem?.mp hm
    cases hp
    refine ⟨_, hc i child hi, ?_⟩
    rw [elementPath, String.append_assoc, String.append_assoc, String.toList_append]
    exact List.prefix_append _ _
  | _ => cases hm

/-- Every node of a tree is somewhere at or below the path of the root. -/
theorem Part.path_of_root (hc : root.Everywhere ChildPaths) {path : String}
    (hr : root.path? = some path) (h : root.Part node) :
    ∃ below, node.path? = some below ∧ path.toList <+: below.toList := by
  induction h with
  | refl => exact ⟨path, hr, List.prefix_rfl⟩
  | tail h hm ih =>
    obtain ⟨parentPath, hp, hprefix⟩ := ih
    obtain ⟨below, hb, hprefix'⟩ := (hc _ h).path_of_parent hp hm
    exact ⟨below, hb, hprefix.trans hprefix'⟩

end Node
end TypedConfig
