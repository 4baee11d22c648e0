/-
# Decoding of leaves, one equation for each kind

A leaf that cannot be read from a node is refused for one cause, which speaks of that
node (`decodeLeaf_fails`). Numbers and truth values are read from a text without the
blanks around it (`decodeWhole_string_eq_ok_iff` and so on).

Key definitions: `LeafFault`.
Key theorems: `decodeWhole_string_eq_ok_iff`, `decodeDouble_string_eq_ok_iff`,
`decodeBoolean_string_eq_ok_iff`, `decodeLeaf_fails`.
-/
import TypedConfig.Decoding.Leaf
import TypedConfig.Proofs.Outcome

namespace TypedConfig

variable {α : Type} (text : String) (node : Node)

theorem decodeLeaf_string : decodeLeaf (α := α) .string text node =
    match node.text? with
    | some s => .ok (.string s)
    | none => .fail (.ofKind node text) := rfl

theorem decodeLeaf_long :
    decodeLeaf (α := α) .long text node = (decodeWhole text node).map .long := rfl

theorem decodeLeaf_int : decodeLeaf (α := α) .int text node =
    match decodeWhole text node with
    | .ok k => if Number.fitsInt32 k.toInt then .ok (.long k) else .fail (.ofValue node text)
    | .error failures => .error failures := rfl

theorem decodeLeaf_double :
    decodeLeaf (α := α) .double text node = (decodeDouble text node).map .double := rfl

theorem decodeLeaf_boolean :
    decodeLeaf (α := α) .boolean text node = (decodeBoolean text node).map .boolean := rfl

theorem decodeLeaf_path : decodeLeaf (α := α) .path text node =
    match node with
    | .string s _ => .ok (.path ⟨s⟩)
    | _ => .fail (.ofKind node text) := rfl

theorem decodeLeaf_enum (name : String) (constants : List String) :
    decodeLeaf (α := α) (.enum name constants) text node =
      match node with
      | .string s _ =>
        match Shape.constant? constants s with
        | some c => .ok (.enum c)
        | none => .fail (.ofValue node text)
      | _ => .fail (.ofKind node text) := rfl

variable {text : String} {node : Node} {failures : Failures}

theorem decodeLeaf_int_eq_ok_iff {value : Value α} :
    decodeLeaf .int text node = .ok value ↔
      ∃ k, decodeWhole text node = .ok k ∧ Number.fitsInt32 k.toInt = true ∧ value = .long k := by
  rw [decodeLeaf_int]
  cases decodeWhole text node with
  | error failures => simp
  | ok k =>
    simp only [Except.ok.injEq, exists_eq_left']
    split
    · rename_i hfits
      simp only [hfits, Except.ok.injEq, true_and]
      exact eq_comm
    · rename_i hfits
      simp [hfits, Outcome.fail]

/-! ### Texts -/

variable {place : Place}

/-- A truth value in small letters. -/
def truthName : Bool → List Char
  | true => ['t', 'r', 'u', 'e']
  | false => ['f', 'a', 'l', 's', 'e']

theorem decodeWhole_string_eq_ok_iff {s : String} {k : Int64} :
    decodeWhole text (.string s place) = .ok k ↔
      Number.readInt64 (Text.trim s.toList) = some k := by
  unfold decodeWhole
  dsimp only
  cases Number.readInt64 (Text.trim s.toList) <;> simp [Outcome.fail]

theorem decodeDouble_string_eq_ok_iff {s : String} {x : Double} :
    decodeDouble text (.string s place) = .ok x ↔
      Number.readDouble (Text.trim s.toList) = some x ∧
        (x.isFinite = true ∨ s.toList.any Text.isDigit = false) := by
  unfold decodeDouble
  dsimp only
  cases Number.readDouble (Text.trim s.toList) with
  | none => simp [Outcome.fail]
  | some y =>
    simp only [Bool.or_eq_true, Bool.not_eq_true', Option.some.injEq]
    constructor
    · intro h
      split at h
      · cases h
        exact ⟨rfl, ‹_›⟩
      · cases h
    · rintro ⟨rfl, h⟩
      rw [if_pos h]

theorem decodeBoolean_string_eq_ok_iff {s : String} {b : Bool} :
    decodeBoolean text (.string s place) = .ok b ↔
      (Text.trim s.toList).map Text.asciiLower = truthName b := by
  unfold decodeBoolean
  dsimp only
  split
  · rename_i h
    rw [h]
    cases b <;> simp [truthName]
  · rename_i h
    rw [h]
    cases b <;> simp [truthName]
  · rename_i ht hf
    constructor
    · intro h
      cases h
    · intro h
      cases b
      · exact absurd h hf
      · exact absurd h ht

/-! ### The name of the leaf

What is read from a node does not depend on how failures name the leaf. -/

variable {text' : String}

theorem decodeWhole_ok_of_ok {k : Int64} (h : decodeWhole text node = .ok k) :
    decodeWhole text' node = .ok k := by
  cases node with
  | string s place => exact decodeWhole_string_eq_ok_iff.mpr (decodeWhole_string_eq_ok_iff.mp h)
  | long n place => exact h
  | _ => cases h

theorem decodeDouble_ok_of_ok {x : Double} (h : decodeDouble text node = .ok x) :
    decodeDouble text' node = .ok x := by
  cases node with
  | string s place => exact decodeDouble_string_eq_ok_iff.mpr (decodeDouble_string_eq_ok_iff.mp h)
  | double y place => exact h
  | long n place => exact h
  | _ => cases h

theorem decodeBoolean_ok_of_ok {b : Bool} (h : decodeBoolean text node = .ok b) :
    decodeBoolean text' node = .ok b := by
  cases node with
  | string s place =>
    exact decodeBoolean_string_eq_ok_iff.mpr (decodeBoolean_string_eq_ok_iff.mp h)
  | boolean b' place => exact h
  | _ => cases h

theorem decodeLeaf_ok_of_ok {kind : Leaf} {value : Value α}
    (h : decodeLeaf kind text node = .ok value) : decodeLeaf kind text' node = .ok value := by
  cases kind with
  | string =>
    rw [decodeLeaf_string] at h ⊢
    cases hs : node.text? with
    | some s =>
      rw [hs] at h
      exact h
    | none =>
      rw [hs] at h
      cases h
  | long =>
    rw [decodeLeaf_long, Outcome.map_eq_ok_iff] at h ⊢
    obtain ⟨k, hk, rfl⟩ := h
    exact ⟨k, decodeWhole_ok_of_ok hk, rfl⟩
  | int =>
    rw [decodeLeaf_int_eq_ok_iff] at h ⊢
    obtain ⟨k, hk, hfits, rfl⟩ := h
    exact ⟨k, decodeWhole_ok_of_ok hk, hfits, rfl⟩
  | double =>
    rw [decodeLeaf_double, Outcome.map_eq_ok_iff] at h ⊢
    obtain ⟨x, hx, rfl⟩ := h
    exact ⟨x, decodeDouble_ok_of_ok hx, rfl⟩
  | boolean =>
    rw [decodeLeaf_boolean, Outcome.map_eq_ok_iff] at h ⊢
    obtain ⟨b, hb, rfl⟩ := h
    exact ⟨b, decodeBoolean_ok_of_ok hb, rfl⟩
  | path =>
    cases node with
    | string s place => exact h
    | _ => cases h
  | enum name constants =>
    cases node with
    | string s place =>
      rw [decodeLeaf_enum] at h ⊢
      dsimp only at h ⊢
      cases hc : Shape.constant? constants s with
      | some c =>
        rw [hc] at h
        exact h
      | none =>
        rw [hc] at h
        cases h
    | _ => cases h
  | named name => cases h

/-! ### Failures -/

/-- The causes for which a leaf is refused: the kind of the node, its value, or that only
the application knows the leaf. -/
inductive LeafFault (text : String) (node : Node) : Failure → Prop
  | kind : LeafFault text node (.ofKind node text)
  | value : LeafFault text node (.ofValue node text)
  | foreign : LeafFault text node (.noDecoder text)

theorem decodeWhole_fails (h : decodeWhole text node = .error failures) :
    ∃ failure, failures = .one failure ∧ LeafFault text node failure := by
  unfold decodeWhole at h
  split at h
  · cases h
  · split at h
    · cases h
    · exact ⟨_, (Except.error.inj h).symm, .value⟩
  · exact ⟨_, (Except.error.inj h).symm, .kind⟩

theorem decodeDouble_fails (h : decodeDouble text node = .error failures) :
    ∃ failure, failures = .one failure ∧ LeafFault text node failure := by
  unfold decodeDouble at h
  split at h
  · cases h
  · cases h
  · split at h
    · split at h
      · cases h
      · exact ⟨_, (Except.error.inj h).symm, .value⟩
    · exact ⟨_, (Except.error.inj h).symm, .value⟩
  · exact ⟨_, (Except.error.inj h).symm, .kind⟩

theorem decodeBoolean_fails (h : decodeBoolean text node = .error failures) :
    ∃ failure, failures = .one failure ∧ LeafFault text node failure := by
  unfold decodeBoolean at h
  split at h
  · cases h
  · split at h
    · cases h
    · cases h
    · exact ⟨_, (Except.error.inj h).symm, .value⟩
  · exact ⟨_, (Except.error.inj h).symm, .kind⟩

/-- A leaf is refused for one cause. -/
theorem decodeLeaf_fails {kind : Leaf}
    (h : decodeLeaf (α := α) kind text node = .error failures) :
    ∃ failure, failures = .one failure ∧ LeafFault text node failure := by
  cases kind with
  | string =>
    rw [decodeLeaf_string] at h
    split at h
    · cases h
    · exact ⟨_, (Except.error.inj h).symm, .kind⟩
  | long =>
    rw [decodeLeaf_long, Outcome.map_eq_error_iff] at h
    exact decodeWhole_fails h
  | int =>
    rw [decodeLeaf_int] at h
    split at h
    · split at h
      · cases h
      · exact ⟨_, (Except.error.inj h).symm, .value⟩
    · rename_i hw
      exact decodeWhole_fails (Except.error.inj h ▸ hw)
  | double =>
    rw [decodeLeaf_double, Outcome.map_eq_error_iff] at h
    exact decodeDouble_fails h
  | boolean =>
    rw [decodeLeaf_boolean, Outcome.map_eq_error_iff] at h
    exact decodeBoolean_fails h
  | path =>
    rw [decodeLeaf_path] at h
    split at h
    · cases h
    · exact ⟨_, (Except.error.inj h).symm, .kind⟩
  | enum name constants =>
    rw [decodeLeaf_enum] at h
    split at h
    · split at h
      · cases h
      · exact ⟨_, (Except.error.inj h).symm, .value⟩
    · exact ⟨_, (Except.error.inj h).symm, .kind⟩
  | named name => exact ⟨_, (Except.error.inj h).symm, .foreign⟩

end TypedConfig
