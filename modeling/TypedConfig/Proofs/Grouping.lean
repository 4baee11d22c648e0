/-
# Outcomes in brackets

What a row of outcomes comes to does not depend on how the row is taken apart. A
sequence is gathered in one pass from left to right; the same comes out if any two
parts of the row are gathered on their own and then zipped (`Outcome.sequence_append`),
so the row may be zipped two by two in any brackets (`Grouping.map_flat_zipped`). The
reason is that zipping is associative but for the nesting of pairs
(`Outcome.zip_assoc`), and that lists of results are put one behind the other, which
is associative too.

Key definitions: `Grouping`, `Grouping.zipped`, `Outcome.failureCount`.
Key theorems: `Outcome.zip_assoc`, `Grouping.map_flat_zipped`, `Outcome.sequence_gathers`.
-/
import Mathlib.Algebra.Ring.Nat
import TypedConfig.Proofs.Outcome

namespace TypedConfig

namespace Outcome

variable {α β γ δ : Type}

/-- Of three parts, it makes no difference which two are zipped first, but for the way in
which the pairs of results are nested. -/
theorem zip_assoc (a : Outcome α) (b : Outcome β) (c : Outcome γ) :
    (zip (zip a b) c).map (fun p => (p.1.1, p.1.2, p.2)) = zip a (zip b c) := by
  cases a <;> cases b <;> cases c <;> simp [zip, Except.map, NonEmpty.append_assoc]

/-- Results may be turned into lists after zipping as well as before. -/
theorem map_zip_append (f : α → List γ) (g : β → List γ) (a : Outcome α) (b : Outcome β) :
    (zip a b).map (fun p => f p.1 ++ g p.2) = zipAppend (a.map f) (b.map g) := by
  cases a <;> cases b <;> rfl

end Outcome

/-! ### Brackets -/

/-- A row of outcomes in brackets, two by two. -/
inductive Grouping (α : Type) where
  | one (o : Outcome α)
  | pair (left right : Grouping α)

namespace Grouping

variable {α : Type}

/-- The outcomes from left to right. -/
def outcomes : Grouping α → List (Outcome α)
  | .one o => [o]
  | .pair left right => left.outcomes ++ right.outcomes

/-- Results in nested pairs, one for each pair of brackets. -/
def Nested : Grouping α → Type
  | .one _ => α
  | .pair left right => left.Nested × right.Nested

/-- The outcomes zipped as the brackets say. -/
def zipped : (grouping : Grouping α) → Outcome grouping.Nested
  | .one o => o
  | .pair left right => Outcome.zip left.zipped right.zipped

/-- The results in nested pairs from left to right. -/
def flat : (grouping : Grouping α) → grouping.Nested → List α
  | .one _, a => [a]
  | .pair left right, (as, bs) => left.flat as ++ right.flat bs

/-- Outcomes that are zipped in any brackets come to what their sequence comes to. -/
theorem map_flat_zipped : ∀ grouping : Grouping α,
    grouping.zipped.map grouping.flat = Outcome.sequence grouping.outcomes
  | .one o => (Outcome.sequence_singleton o).symm
  | .pair left right => by
    have hleft := map_flat_zipped left
    have hright := map_flat_zipped right
    calc (pair left right).zipped.map (pair left right).flat
        = Outcome.zipAppend (left.zipped.map left.flat) (right.zipped.map right.flat) :=
          Outcome.map_zip_append left.flat right.flat left.zipped right.zipped
      _ = Outcome.zipAppend (Outcome.sequence left.outcomes)
            (Outcome.sequence right.outcomes) := by rw [hleft, hright]
      _ = Outcome.sequence (left.outcomes ++ right.outcomes) :=
          (Outcome.sequence_append left.outcomes right.outcomes).symm

end Grouping

/-! ### The laws of gathering -/

namespace Outcome

variable {α : Type}

/-- How many failures an outcome has at the top; none if it is a result. -/
def failureCount : Outcome α → Nat
  | .ok _ => 0
  | .error fs => fs.size

theorem length_failures (o : Outcome α) : o.failures.length = o.failureCount := by
  cases o with
  | ok a => rfl
  | error fs => exact fs.length_toList

/-- A sequence has as many failures as all its parts together. -/
theorem failureCount_sequence (os : List (Outcome α)) :
    (sequence os).failureCount = (os.map failureCount).sum := by
  rw [← length_failures, failures_sequence, List.length_flatMap]
  simp only [length_failures]

/-- A sequence is zipped from the right, one part in front of another. -/
theorem sequence_eq_foldr : ∀ os : List (Outcome α),
    sequence os = os.foldr (fun o as => (zip o as).map fun p => p.1 :: p.2) (.ok [])
  | [] => rfl
  | o :: os => by
    rw [sequence_cons, List.foldr_cons, ← sequence_eq_foldr os]
    cases o <;> cases sequence os <;> rfl

/-- **Gathering keeps all results or all failures, in any brackets.** A sequence has results
exactly if every part has one, and then they are those of the parts in order; it fails
exactly with the failures of the parts one behind the other, so that their numbers add up.
Gathering a row is gathering any two parts of it and zipping what comes out; hence the parts
may be zipped one by one from either end or in any brackets, as zipping is associative. -/
theorem sequence_gathers :
    (∀ os : List (Outcome α), (∃ as, sequence os = .ok as) ↔ ∀ o ∈ os, ∃ a, o = .ok a) ∧
    (∀ (os : List (Outcome α)) (as : List α), sequence os = .ok as ↔ os = as.map .ok) ∧
    (∀ (os : List (Outcome α)) (fs : Failures),
      sequence os = .error fs ↔ fs.toList = os.flatMap failures) ∧
    (∀ os : List (Outcome α), (sequence os).failureCount = (os.map failureCount).sum) ∧
    (∀ xs ys : List (Outcome α), sequence (xs ++ ys) =
      (zip (sequence xs) (sequence ys)).map fun p => p.1 ++ p.2) ∧
    (∀ os : List (Outcome α), sequence os =
      os.foldl (fun as o => (zip as o).map fun p => p.1 ++ [p.2]) (.ok [])) ∧
    (∀ os : List (Outcome α), sequence os =
      os.foldr (fun o as => (zip o as).map fun p => p.1 :: p.2) (.ok [])) ∧
    (∀ grouping : Grouping α,
      grouping.zipped.map grouping.flat = sequence grouping.outcomes) ∧
    ∀ (β γ δ : Type) (a : Outcome β) (b : Outcome γ) (c : Outcome δ),
      (zip (zip a b) c).map (fun p => (p.1.1, p.1.2, p.2)) = zip a (zip b c) :=
  ⟨exists_ok_sequence_iff, fun _ _ => sequence_eq_ok_iff, fun _ _ => sequence_eq_error_iff,
    failureCount_sequence, sequence_append, sequence_eq_foldl, sequence_eq_foldr,
    Grouping.map_flat_zipped, fun _ _ _ => zip_assoc⟩

/-- A result behind a failure is dropped, a failure is not. -/
example : sequence [.ok 1, .fail (.unknownSource "a"), .ok 2, .fail (.unknownSource "b")] =
    .error ⟨.unknownSource "a", [.unknownSource "b"]⟩ := rfl

end Outcome
end TypedConfig
