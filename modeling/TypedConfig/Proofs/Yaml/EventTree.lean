/-
# The meaning of trees of events

Some trees of events say more than a node can: they hold references, keys that are
no scalars, or a key twice in one mapping. `violations` lists these things in the
order of the document, and `node` is the node of a tree without any. The meaning
of a tree is its node, or the first of its violations (`denote_eq`).

Key definitions: `EventTree.violations`, `EventTree.node`, `verdict`.
Key theorems: `EventTree.elementNodes_eq`, `EventTree.pairNodes_eq`,
`EventTree.denote_eq`.
-/
import TypedConfig.Yaml.EventTree

namespace TypedConfig
namespace Yaml

/-- The first violation, or a result if there is none. -/
def verdict {β : Type} (violations : List ParseError) (result : β) : Except ParseError β :=
  match violations with
  | [] => .ok result
  | error :: _ => .error error

/-- What is decided by two verdicts one after the other is decided by their violations
together. -/
theorem verdict_bind {β γ : Type} {errors more : List ParseError} {result : β} {next : γ}
    {f : β → Except ParseError γ} (h : f result = verdict more next) :
    (verdict errors result >>= f) = verdict (errors ++ more) next := by
  cases errors with
  | nil => exact h
  | cons error errors => rfl

theorem verdict_map {β γ : Type} (errors : List ParseError) (result : β) (f : β → γ) :
    (verdict errors result >>= fun x => pure (f x)) = verdict errors (f result) := by
  cases errors <;> rfl

namespace EventTree

/-- The text of a tree that can be a key. -/
def keyText? : EventTree → Option String
  | .scalar _ _ text => some text
  | _ => none

/-- The text of a key. -/
def keyText (key : EventTree) : String := key.keyText?.getD ""

/-! ### What a node cannot express -/

/-- What is wrong with a key that comes after `keys` in the mapping at `path`. -/
def keyViolations (source path : String) (keys : List String) : EventTree → List ParseError
  | .scalar mark _ text =>
    if text ∈ keys then [.duplicateKey text path (mark.position source)] else []
  | .reference mark => [.unsupported "YAML aliases are not supported" (mark.position source)]
  | .sequence mark _ | .mapping mark _ =>
    [.unsupported "only scalar mapping keys are supported" (mark.position source)]

mutual

/-- Everything in a tree that a node cannot express, in the order of the document. What is
inside a key is not looked at. -/
def violations (source path : String) : EventTree → List ParseError
  | .scalar .. => []
  | .reference mark => [.unsupported "YAML aliases are not supported" (mark.position source)]
  | .sequence _ elements => elementViolations source path 0 elements
  | .mapping _ pairs => pairViolations source path [] pairs

/-- The violations in the elements of a sequence at `path`, of which the first is at
`index`. -/
def elementViolations (source path : String) (index : Nat) : List EventTree → List ParseError
  | [] => []
  | element :: elements =>
    violations source (elementPath path index) element ++
      elementViolations source path (index + 1) elements

/-- The violations in the pairs of a mapping at `path`, which come after those with the
given keys. -/
def pairViolations (source path : String) (keys : List String) :
    List (EventTree × EventTree) → List ParseError
  | [] => []
  | (key, value) :: pairs =>
    keyViolations source path keys key ++
      (violations source (childPath path key.keyText) value ++
        pairViolations source path (keys ++ key.keyText?.toList) pairs)

end

/-! ### The node of a tree without violations -/

/-- The node of a scalar: only a plain one is typed by its spelling. -/
def scalarNode (style : ScalarStyle) (text : String) (place : Place) : Node :=
  if style = .plain then plainNode text place else .string text place

mutual

/-- The node of a tree at a path. A reference has none. -/
def node (source path : String) : EventTree → Node
  | .scalar mark style text => scalarNode style text ⟨mark.position source, path⟩
  | .reference _ => .undefined
  | .sequence mark elements =>
    .array (elementNodes source path 0 elements) ⟨mark.position source, path⟩
  | .mapping mark pairs => .map (pairNodes source path pairs) ⟨mark.position source, path⟩

/-- The nodes of the elements of a sequence, of which the first is at `index`. -/
def elementNodes (source path : String) (index : Nat) : List EventTree → List Node
  | [] => []
  | element :: elements =>
    node source (elementPath path index) element :: elementNodes source path (index + 1) elements

/-- The entries of a mapping. -/
def pairNodes (source path : String) : List (EventTree × EventTree) → Entries Node
  | [] => []
  | (key, value) :: pairs =>
    (key.keyText, node source (childPath path key.keyText) value) :: pairNodes source path pairs

end

/-- The elements of a sequence are the nodes of its elements, each at its index. -/
theorem elementNodes_eq (source path : String) : ∀ (elements : List EventTree) (index : Nat),
    elementNodes source path index elements =
      elements.mapIdx fun i element => element.node source (elementPath path (i + index))
  | [], _ => rfl
  | element :: elements, index => by
    rw [elementNodes, elementNodes_eq source path elements (index + 1), List.mapIdx_cons]
    simp only [Nat.zero_add, Nat.add_assoc, Nat.add_comm 1]

/-- The entries of a mapping are the nodes of its values, each under its key. -/
theorem pairNodes_eq (source path : String) : ∀ pairs : List (EventTree × EventTree),
    pairNodes source path pairs =
      pairs.map fun pair =>
        (pair.1.keyText, pair.2.node source (childPath path pair.1.keyText))
  | [] => rfl
  | (key, value) :: pairs => by
    rw [pairNodes, pairNodes_eq source path pairs, List.map_cons]

/-! ### The meaning of a tree -/

theorem denoteKey_scalar (source path : String) (keys : List String) (mark : Mark)
    (style : ScalarStyle) (text : String) :
    denoteKey source path keys (.scalar mark style text) =
      verdict (keyViolations source path keys (.scalar mark style text)) text := by
  rw [denoteKey, keyViolations]
  split <;> rfl

mutual

/-- A tree means its node, unless it has violations: then it means the first of them. -/
theorem denote_eq (source path : String) : ∀ tree : EventTree,
    tree.denote source path = verdict (tree.violations source path) (tree.node source path)
  | .scalar mark style text => rfl
  | .reference mark => rfl
  | .sequence mark elements => by
    rw [denote, denoteElements_eq source path 0 elements, verdict_map]
    rfl
  | .mapping mark pairs => by
    rw [denote, denotePairs_eq source path [] pairs, verdict_map]
    rfl

theorem denoteElements_eq (source path : String) (index : Nat) :
    ∀ elements : List EventTree, denoteElements source path index elements =
      verdict (elementViolations source path index elements)
        (elementNodes source path index elements)
  | [] => rfl
  | element :: elements => by
    rw [denoteElements, denote_eq source (elementPath path index) element, elementViolations,
      elementNodes]
    refine verdict_bind ?_
    rw [denoteElements_eq source path (index + 1) elements, verdict_map]

theorem denotePairs_eq (source path : String) (keys : List String) :
    ∀ pairs : List (EventTree × EventTree), denotePairs source path keys pairs =
      verdict (pairViolations source path keys pairs) (pairNodes source path pairs)
  | [] => rfl
  | (.scalar mark style text, value) :: pairs => by
    rw [denotePairs, denoteKey_scalar, pairViolations, pairNodes]
    refine verdict_bind ?_
    rw [denote_eq source (childPath path text) value]
    refine verdict_bind ?_
    rw [denotePairs_eq source path (keys ++ [text]) pairs, verdict_map]
    rfl
  | (.reference mark, value) :: pairs => rfl
  | (.sequence mark elements, value) :: pairs => rfl
  | (.mapping mark inner, value) :: pairs => rfl

end

end EventTree
end Yaml
end TypedConfig
