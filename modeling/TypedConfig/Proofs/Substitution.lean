/-
# Substitution in whole trees

Substitutions by several lookups run one after another, each on what the one
before left (`Preprocessor.run_cons`). They put texts in the place of texts and
leave every other node alone, so a whole tree can be rewritten from the top down:
`rewriteBelow` runs the substitutions once on every node below the root and then
goes on below what they left.

Key definitions: `Substitution.applyAll`, `Substitution.rewriteBelow`.
Key theorems: `Preprocessor.run_cons`, `Substitution.rewriteBelow_map`,
`Substitution.rewriteBelow_array`.
-/
import TypedConfig.Proofs.Entries
import TypedConfig.Substitution

namespace TypedConfig
namespace Preprocessor

theorem foldl_rewritten : ∀ (ps : List Preprocessor) (base node : Node),
    ps.foldl (fun current p => (p (current.getD base)).or current) (some node) =
      some (run ps node)
  | [], _, _ => rfl
  | p :: ps, base, node => by
    rw [List.foldl_cons, run, rewrite?, List.foldl_cons]
    change ps.foldl _ ((p node).or (some node)) = some ((ps.foldl _ ((p node).or none)).getD node)
    -- `base` counts only as long as nothing has been rewritten
    cases p node with
    | none => exact foldl_rewritten ps base node
    | some next =>
      rw [Option.some_or, Option.some_or, foldl_rewritten ps base next,
        foldl_rewritten ps node next]
      rfl

/-- The first preprocessor sees the node, and the others what it left. -/
theorem run_cons (p : Preprocessor) (ps : List Preprocessor) (node : Node) :
    run (p :: ps) node = run ps ((p node).getD node) := by
  rw [run, rewrite?, List.foldl_cons]
  change (ps.foldl _ ((p node).or none)).getD node = _
  cases p node with
  | none => rfl
  | some next =>
    rw [Option.some_or, foldl_rewritten ps node next]
    rfl

end Preprocessor

/-! ### The weight of a tree -/

namespace Node

mutual

/-- How many containers a tree has. -/
def weight : Node → Nat
  | .map entries _ => entriesWeight entries + 1
  | .array elements _ => elementsWeight elements + 1
  | _ => 0

/-- How many containers there are in the trees of all entries. -/
def entriesWeight : List (String × Node) → Nat
  | [] => 0
  | (_, node) :: entries => node.weight + entriesWeight entries

/-- How many containers there are in all elements. -/
def elementsWeight : List Node → Nat
  | [] => 0
  | node :: elements => node.weight + elementsWeight elements

end

theorem weight_le_entriesWeight {e : String × Node} : ∀ {entries : List (String × Node)},
    e ∈ entries → e.2.weight ≤ entriesWeight entries
  | (key, node) :: entries, h => by
    rw [entriesWeight]
    rcases List.mem_cons.mp h with rfl | h
    · exact Nat.le_add_right _ _
    · have ih := weight_le_entriesWeight h
      omega

theorem weight_le_elementsWeight {n : Node} : ∀ {elements : List Node},
    n ∈ elements → n.weight ≤ elementsWeight elements
  | node :: elements, h => by
    rw [elementsWeight]
    rcases List.mem_cons.mp h with rfl | h
    · exact Nat.le_add_right _ _
    · have ih := weight_le_elementsWeight h
      omega

end Node

namespace Substitution

/-- A reference is one segment of its text. -/
theorem segments_reference {cs name rest : List Char} (h : reference? cs = some (name, rest)) :
    segments ('$' :: '\x7b' :: cs) = .reference name :: segments rest := by
  rw [segments]
  split
  · rename_i hr
    rw [h] at hr
    cases hr
    rfl
  · rename_i hr
    rw [h] at hr
    cases hr

/-- The node after the substitutions by all lookups, one after another. -/
def applyAll (lookups : List (String → Option String)) (node : Node) : Node :=
  Preprocessor.run (lookups.map preprocessor) node

variable {lookups : List (String → Option String)}

theorem applyAll_cons (lookup : String → Option String) (node : Node) :
    applyAll (lookup :: lookups) node =
      applyAll lookups ((preprocessor lookup node).getD node) :=
  Preprocessor.run_cons (preprocessor lookup) (lookups.map preprocessor) node

theorem preprocessor_no_text {node : Node} (h : ∀ value place, node ≠ .string value place)
    (lookup : String → Option String) : preprocessor lookup node = none := by
  cases node with
  | string value place => exact absurd rfl (h value place)
  | _ => rfl

/-- Nodes that are no texts are left alone. -/
theorem applyAll_no_text {node : Node} (h : ∀ value place, node ≠ .string value place) :
    ∀ lookups : List (String → Option String), applyAll lookups node = node
  | [] => rfl
  | lookup :: lookups => by
    rw [applyAll_cons, preprocessor_no_text h]
    exact applyAll_no_text h lookups

/-- A text stays a text at its place. -/
theorem applyAll_string (place : Place) : ∀ (lookups : List (String → Option String))
    (value : String), ∃ value', applyAll lookups (.string value place) = .string value' place
  | [], value => ⟨value, rfl⟩
  | lookup :: lookups, value => by
    rw [applyAll_cons]
    cases ho : hasOpening value.toList with
    | true =>
      simp only [preprocessor, ho, if_true, Option.getD_some]
      exact applyAll_string place lookups (substitute lookup value)
    | false =>
      rw [preprocessor, if_neg (by simp [ho])]
      exact applyAll_string place lookups value

theorem weight_applyAll (node : Node) : (applyAll lookups node).weight = node.weight := by
  cases node with
  | string value place =>
    obtain ⟨value', h⟩ := applyAll_string place lookups value
    rw [h]
    rfl
  | _ => rw [applyAll_no_text (by simp)]

/-- The tree in which every node below the root has gone through the substitutions once,
from the top down. The root itself is left alone. -/
def rewriteBelow (lookups : List (String → Option String)) (node : Node) : Node :=
  match node with
  | .map entries place =>
    .map (entries.attach.map fun e => (e.1.1, rewriteBelow lookups (applyAll lookups e.1.2))) place
  | .array elements place =>
    .array (elements.attach.map fun n => rewriteBelow lookups (applyAll lookups n.1)) place
  | node => node
termination_by node.weight
decreasing_by
  · have hle := Node.weight_le_entriesWeight e.2
    rw [weight_applyAll, Node.weight]
    omega
  · have hle := Node.weight_le_elementsWeight n.2
    rw [weight_applyAll, Node.weight]
    omega

/-! ### What rewriting does to each kind of node -/

@[simp]
theorem rewriteBelow_map (entries : List (String × Node)) (place : Place) :
    rewriteBelow lookups (.map entries place) =
      .map (entries.map fun e => (e.1, rewriteBelow lookups (applyAll lookups e.2))) place := by
  rw [rewriteBelow, List.attach_map_val (f := fun e : String × Node =>
    (e.1, rewriteBelow lookups (applyAll lookups e.2)))]

@[simp]
theorem rewriteBelow_array (elements : List Node) (place : Place) :
    rewriteBelow lookups (.array elements place) =
      .array (elements.map fun n => rewriteBelow lookups (applyAll lookups n)) place := by
  rw [rewriteBelow, List.attach_map_val (f := fun n => rewriteBelow lookups (applyAll lookups n))]

@[simp]
theorem rewriteBelow_string (value : String) (place : Place) :
    rewriteBelow lookups (.string value place) = .string value place := by
  simp [rewriteBelow]

@[simp]
theorem rewriteBelow_undefined : rewriteBelow lookups .undefined = .undefined := by
  simp [rewriteBelow]

/-- The root stays the kind of node it is, at its place. -/
theorem place?_rewriteBelow (node : Node) : (rewriteBelow lookups node).place? = node.place? := by
  cases node <;> simp [rewriteBelow, Node.place?]

theorem position_rewriteBelow (node : Node) :
    (rewriteBelow lookups node).position = node.position := by
  rw [Node.position, Node.position, place?_rewriteBelow]

theorem pathOrRoot_rewriteBelow (node : Node) :
    (rewriteBelow lookups node).pathOrRoot = node.pathOrRoot := by
  rw [Node.pathOrRoot, Node.pathOrRoot, Node.path?, Node.path?, place?_rewriteBelow]

theorem typeName_rewriteBelow (node : Node) :
    (rewriteBelow lookups node).typeName = node.typeName := by
  cases node <;> simp [rewriteBelow, Node.typeName]

theorem isDefined_rewriteBelow (node : Node) :
    (rewriteBelow lookups node).isDefined = node.isDefined := by
  cases node <;> simp [rewriteBelow, Node.isDefined]

theorem isDefined_applyAll (node : Node) : (applyAll lookups node).isDefined = node.isDefined := by
  cases node with
  | string value place =>
    obtain ⟨value', h⟩ := applyAll_string place lookups value
    rw [h]
    rfl
  | _ => rw [applyAll_no_text (by simp)]

/-- Looking up a child of the rewritten tree finds the child rewritten. -/
theorem atKey_rewriteBelow (node : Node) (key : String) :
    (rewriteBelow lookups node).atKey key =
      rewriteBelow lookups (applyAll lookups (node.atKey key)) := by
  cases node with
  | map entries place =>
    rw [rewriteBelow_map, Node.atKey, Node.atKey, Entries.lookup_map_values entries key
      fun n => rewriteBelow lookups (applyAll lookups n)]
    cases entries.lookup key with
    | none => simp [applyAll_no_text]
    | some child => rfl
  | _ => simp [rewriteBelow, Node.atKey, applyAll_no_text]

end Substitution
end TypedConfig
