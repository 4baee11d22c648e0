/-
# Lists that hold something

Key definitions: `NonEmpty`, `NonEmpty.ofList?`, `NonEmpty.append`.
-/

namespace TypedConfig

/-- A list with at least one element. -/
structure NonEmpty (α : Type) where
  first : α
  rest : List α
deriving DecidableEq

namespace NonEmpty

variable {α β : Type}

/-- The list with just one element. -/
def one (a : α) : NonEmpty α := ⟨a, []⟩

/-- The elements in order. -/
def toList (xs : NonEmpty α) : List α := xs.first :: xs.rest

/-- The elements of a list, if it has any. -/
def ofList? : List α → Option (NonEmpty α)
  | [] => none
  | a :: as => some ⟨a, as⟩

/-- All of `xs` and after them all of `ys`. -/
def append (xs ys : NonEmpty α) : NonEmpty α := ⟨xs.first, xs.rest ++ ys.toList⟩

instance : Append (NonEmpty α) := ⟨append⟩

/-- How many elements there are. -/
def size (xs : NonEmpty α) : Nat := xs.rest.length + 1

@[simp] theorem toList_one (a : α) : (one a).toList = [a] := rfl

@[simp] theorem toList_append (xs ys : NonEmpty α) : (xs ++ ys).toList = xs.toList ++ ys.toList :=
  rfl

theorem append_assoc (xs ys zs : NonEmpty α) : xs ++ ys ++ zs = xs ++ (ys ++ zs) := by
  change mk _ _ = mk _ _
  rw [toList_append, ← List.append_assoc]
  rfl

theorem length_toList (xs : NonEmpty α) : xs.toList.length = xs.size := rfl

theorem toList_ne_nil (xs : NonEmpty α) : xs.toList ≠ [] := by simp [toList]

end NonEmpty
end TypedConfig
