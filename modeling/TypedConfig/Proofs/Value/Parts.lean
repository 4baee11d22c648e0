/-
# The parts of a value

The elements of lists and sets and the values of maps and records are the parts
of a value (`Value.children`). They are smaller than the value, so what is shown
of a value from its parts holds of every value (`Value.induction`), and
`Value.Everywhere` says of a property that a value has it together with
everything inside it.

A value is proper (`Value.Proper`) if sets keep no element that equals a later
one and maps hold each key once, at every depth. It is free of NaN
(`Value.NaNFree`) if no double in it is one.

Key definitions: `Value.children`, `Value.Everywhere`, `Value.Proper`,
`Value.NaNFree`.
Key theorems: `Value.induction`, `Value.everywhere_iff`.
-/
import Mathlib.Logic.Relation
import TypedConfig.Value

namespace TypedConfig
namespace Value

variable {α : Type}

/-- The values that a value directly holds, in order. -/
def children : Value α → List (Value α)
  | .list elements | .set elements => elements
  | .map entries | .record _ entries => entries.map (·.2)
  | _ => []

theorem mem_children_of_entry {es : List (String × Value α)} {e : String × Value α}
    (he : e ∈ es) : e.2 ∈ es.map (·.2) := List.mem_map.mpr ⟨e, he, rfl⟩

theorem sizeOf_lt_of_entry {es : List (String × Value α)} {child : Value α}
    (h : child ∈ es.map (·.2)) : sizeOf child < sizeOf es := by
  obtain ⟨⟨key, v⟩, he, rfl⟩ := List.mem_map.mp h
  have hmem : sizeOf (key, v) < sizeOf es := List.sizeOf_lt_of_mem he
  rw [Prod.mk.sizeOf_spec] at hmem
  show sizeOf v < sizeOf es
  omega

/-- A value is larger than each of its parts. -/
theorem sizeOf_child {v child : Value α} (h : child ∈ v.children) : sizeOf child < sizeOf v := by
  cases v with
  | list elements =>
    have hmem : sizeOf child < sizeOf elements := List.sizeOf_lt_of_mem h
    rw [list.sizeOf_spec]
    omega
  | set elements =>
    have hmem : sizeOf child < sizeOf elements := List.sizeOf_lt_of_mem h
    rw [set.sizeOf_spec]
    omega
  | map entries =>
    have hmem : sizeOf child < sizeOf entries := sizeOf_lt_of_entry h
    rw [map.sizeOf_spec]
    omega
  | record name fields =>
    have hmem : sizeOf child < sizeOf fields := sizeOf_lt_of_entry h
    rw [record.sizeOf_spec]
    omega
  | _ => cases h

/-- Induction over values, each from its parts. -/
@[elab_as_elim]
theorem induction {motive : Value α → Prop}
    (parts : ∀ v, (∀ child ∈ v.children, motive child) → motive v) (v : Value α) : motive v :=
  parts v fun child _ => induction parts child
termination_by sizeOf v
decreasing_by exact sizeOf_child ‹_›

/-! ### Properties that hold at every depth -/

/-- A value with everything inside it. -/
abbrev Part (whole part : Value α) : Prop :=
  Relation.ReflTransGen (fun v child => child ∈ children v) whole part

/-- The value and everything inside it have the property. -/
def Everywhere (P : Value α → Prop) (v : Value α) : Prop := ∀ part, v.Part part → P part

variable {P : Value α → Prop} {v : Value α}

/-- What holds everywhere in a value holds of it and everywhere in each of its parts. -/
theorem everywhere_iff :
    v.Everywhere P ↔ P v ∧ ∀ child ∈ v.children, child.Everywhere P := by
  constructor
  · intro h
    exact ⟨h v .refl, fun child hm part hp => h part (.head hm hp)⟩
  · rintro ⟨hself, hchildren⟩ part hp
    rcases hp.cases_head with rfl | ⟨child, hm, hp⟩
    · exact hself
    · exact hchildren child hm part hp

theorem Everywhere.self (h : v.Everywhere P) : P v := (everywhere_iff.mp h).1

theorem Everywhere.child (h : v.Everywhere P) {child : Value α} (hm : child ∈ v.children) :
    child.Everywhere P := (everywhere_iff.mp h).2 child hm

/-! ### Proper values -/

/-- In a set no element equals a later one, and a map or a record holds each key once, said of
the value without its parts. -/
def Distinct : Value α → Prop
  | .set elements => elements.Pairwise fun x y => x.equals y = false
  | .map entries | .record _ entries => (Entries.keys entries).Nodup
  | _ => True

/-- At every depth, sets are without equal elements and maps without equal keys. The latter
holds of every map and every record that is filled by inserting under a key. -/
def Proper (v : Value α) : Prop := v.Everywhere Distinct

/-- The value is no double that is not a number. -/
def NotNaN : Value α → Prop
  | .double x => x.isNaN = false
  | _ => True

/-- No double in the value is a NaN. -/
def NaNFree (v : Value α) : Prop := v.Everywhere NotNaN

theorem proper_of_no_children (h0 : v.children = []) (h : v.Distinct) : v.Proper := by
  refine everywhere_iff.mpr ⟨h, fun child hm => ?_⟩
  rw [h0] at hm
  cases hm

theorem Proper.child (h : v.Proper) {child : Value α} (hm : child ∈ v.children) : child.Proper :=
  Everywhere.child h hm

theorem NaNFree.child (h : v.NaNFree) {child : Value α} (hm : child ∈ v.children) :
    child.NaNFree :=
  Everywhere.child h hm

end Value
end TypedConfig
