/-
# The arguments of a record, field by field

The fields of a record are bound one by one, each to a value or, if it is left
out, to nothing. If their names differ, the arguments made of these bindings hold
for each field its own value or its own default (`value?_ofBindings`), and list
them in declared order (`materialize_ofBindings`).

Key definitions: `Arguments.named`, `Arguments.ofBindings`.
Key theorems: `Arguments.value?_ofBindings`, `Arguments.materialize_ofBindings`.
-/
import Mathlib.Data.List.Basic
import TypedConfig.Proofs.Entries
import TypedConfig.Shape

namespace TypedConfig
namespace Arguments

variable {α : Type}

/-- A field with what it is bound to; nothing if it is left out. -/
abbrev Binding (α : Type) := ShapeField α × Option (Value α)

/-- The values that `choose` has for some of the fields, under the names of the fields. -/
def named (choose : Binding α → Option (Value α)) (bindings : List (Binding α)) :
    List (String × Value α) :=
  bindings.filterMap fun b => (choose b).map (b.1.name, ·)

/-- The arguments of a record whose fields are bound in declared order as listed. -/
def ofBindings (fields : List (ShapeField α)) (values : List (Option (Value α))) : Arguments α :=
  ⟨Shape.declarations fields, Entries.ofPairs (named (·.2) (fields.zip values))⟩

variable {choose : Binding α → Option (Value α)}

theorem named_cons (b : Binding α) (bindings : List (Binding α)) :
    named choose (b :: bindings) =
      ((choose b).map (b.1.name, ·)).toList ++ named choose bindings := by
  rw [named, List.filterMap_cons]
  cases choose b <;> rfl

theorem keys_named_sublist : ∀ bindings : List (Binding α),
    (Entries.keys (named choose bindings)).Sublist (bindings.map (·.1.name))
  | [] => List.Sublist.refl _
  | b :: bindings => by
    rw [named_cons, List.map_cons]
    cases choose b with
    | none => exact (keys_named_sublist bindings).cons _
    | some value => exact (keys_named_sublist bindings).cons_cons _

theorem keys_named_nodup {bindings : List (Binding α)} (h : (bindings.map (·.1.name)).Nodup) :
    (Entries.keys (named choose bindings)).Nodup :=
  h.sublist (keys_named_sublist bindings)

/-- The names are those of the fields that have a value, in their order. -/
theorem keys_named : ∀ bindings : List (Binding α),
    Entries.keys (named choose bindings) =
      (bindings.filter fun b => (choose b).isSome).map (·.1.name)
  | [] => rfl
  | b :: bindings => by
    have ih : Entries.keys (named choose bindings) =
        (bindings.filter fun b => (choose b).isSome).map (·.1.name) := keys_named bindings
    rw [named_cons, List.filter_cons]
    cases h : choose b with
    | none => exact ih
    | some value => exact congrArg (b.1.name :: ·) ih

/-- Each field is found under its own name, or not at all. -/
theorem lookup_named : ∀ {bindings : List (Binding α)}, (bindings.map (·.1.name)).Nodup →
    ∀ b ∈ bindings, (named choose bindings).lookup b.1.name = choose b
  | first :: bindings, h, b, hb => by
    rw [List.map_cons, List.nodup_cons] at h
    rw [named_cons]
    rcases List.mem_cons.mp hb with rfl | hb
    · cases hc : choose b with
      | some value => simp
      | none =>
        refine Entries.lookup_eq_none_of_not_mem fun hm => h.1 ?_
        exact (keys_named_sublist bindings).subset hm
    · have hne : b.1.name ≠ first.1.name := fun he =>
        h.1 (he ▸ List.mem_map.mpr ⟨b, hb, rfl⟩)
      have ih := lookup_named h.2 b hb
      cases hc : choose first with
      | none => exact ih
      | some value =>
        rw [Option.map_some, Option.toList_some, List.singleton_append, List.lookup_cons,
          beq_false_of_ne hne]
        exact ih

theorem find_declaration : ∀ {fields : List (ShapeField α)}, (fields.map (·.name)).Nodup →
    ∀ field ∈ fields,
      (Shape.declarations fields).find? (·.name == field.name) = some ⟨field.name, field.default?⟩
  | first :: fields, h, field, hf => by
    rw [List.map_cons, List.nodup_cons] at h
    rcases List.mem_cons.mp hf with rfl | hf
    · simp [Shape.declarations]
    · have hne : first.name ≠ field.name := fun he =>
        h.1 (he ▸ List.mem_map.mpr ⟨field, hf, rfl⟩)
      rw [Shape.declarations, List.map_cons, List.find?_cons, beq_false_of_ne hne]
      exact find_declaration h.2 field hf

/-! ### Reading the arguments -/

variable {fields : List (ShapeField α)} {values : List (Option (Value α))}

theorem names_zip (hlen : fields.length = values.length) :
    (fields.zip values).map (·.1.name) = fields.map (·.name) := by
  calc (fields.zip values).map (·.1.name)
      = ((fields.zip values).map (·.1)).map (·.name) := by rw [List.map_map]; rfl
    _ = fields.map (·.name) := by rw [List.map_fst_zip (by omega)]

theorem bound_ofBindings (h : (fields.map (·.name)).Nodup)
    (hlen : fields.length = values.length) :
    (ofBindings fields values).bound = named (·.2) (fields.zip values) :=
  Entries.ofPairs_eq_self (keys_named_nodup (names_zip hlen ▸ h))

/-- Each field is bound under its own name. -/
theorem lookup_ofBindings (h : (fields.map (·.name)).Nodup)
    (hlen : fields.length = values.length) {b : Binding α} (hb : b ∈ fields.zip values) :
    (ofBindings fields values).bound.lookup b.1.name = b.2 := by
  rw [bound_ofBindings h hlen]
  exact lookup_named (names_zip hlen ▸ h) b hb

/-- Reading a field gives what it is bound to, or else its own default. -/
theorem value?_ofBindings (h : (fields.map (·.name)).Nodup)
    (hlen : fields.length = values.length) {b : Binding α} (hb : b ∈ fields.zip values) :
    (ofBindings fields values).value? b.1.name = b.2.or b.1.default? := by
  rw [value?, lookup_ofBindings h hlen hb]
  cases b.2 with
  | some value => rfl
  | none =>
    rw [ofBindings, find_declaration h b.1 (List.of_mem_zip hb).1]
    rfl

/-- What is bound under a name was bound to a field of that name. -/
theorem exists_binding_of_lookup {name : String} {value : Value α}
    (h : (ofBindings fields values).bound.lookup name = some value) :
    ∃ b ∈ fields.zip values, b.1.name = name ∧ b.2 = some value := by
  have hmem : (name, value) ∈ (ofBindings fields values).bound := Entries.mem_of_lookup h
  obtain ⟨b, hb, hpair⟩ := List.mem_filterMap.mp (Entries.mem_of_mem_ofPairs hmem)
  obtain ⟨v, hv, hname⟩ := Option.map_eq_some_iff.mp hpair
  cases hname
  exact ⟨b, hb, rfl, hv⟩

/-- The declared fields hold what they are bound to, or else their defaults, in declared
order. -/
theorem materialize_ofBindings (h : (fields.map (·.name)).Nodup)
    (hlen : fields.length = values.length) :
    (ofBindings fields values).materialize =
      named (fun b => b.2.or b.1.default?) (fields.zip values) := by
  have hdeclared : (ofBindings fields values).declared =
      (fields.zip values).map fun b => ⟨b.1.name, b.1.default?⟩ := by
    calc Shape.declarations fields
        = Shape.declarations ((fields.zip values).map (·.1)) := by rw [List.map_fst_zip (by omega)]
      _ = (fields.zip values).map fun b => ⟨b.1.name, b.1.default?⟩ := by
        rw [Shape.declarations, List.map_map]
        rfl
  have hpairs : (ofBindings fields values).declared.filterMap
      (fun d => ((ofBindings fields values).value? d.name).map (d.name, ·)) =
      named (fun b => b.2.or b.1.default?) (fields.zip values) := by
    rw [hdeclared, List.filterMap_map]
    refine List.filterMap_congr fun b hb => ?_
    simp only [Function.comp_apply, value?_ofBindings h hlen hb]
  rw [materialize, hpairs]
  exact Entries.ofPairs_eq_self (keys_named_nodup (names_zip hlen ▸ h))

end Arguments
end TypedConfig
