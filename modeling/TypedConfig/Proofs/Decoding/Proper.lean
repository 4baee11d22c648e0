/-
# Decoded values are proper

Decoding collects elements in sets, which keep none that equals another, and fills
maps and records by inserting under keys. So what is decoded without constructors
is proper, as far as the defaults that it takes over are (`proper_of_decodeAt`).

Key definitions: `Shape.ProperDefaults`.
Key theorems: `Context.proper_materialize`, `Context.proper_of_decodeAt`.
-/
import TypedConfig.Proofs.Decoding.Soundness
import TypedConfig.Proofs.Value.SetOf

namespace TypedConfig

variable {α : Type}

/-- The defaults of a record are proper, said of the shape without its parts. -/
def Shape.ProperDefaults : Shape α → Prop
  | .record _ fields _ _ => ∀ field ∈ fields, ∀ value, field.default? = some value → value.Proper
  | _ => True

namespace Context

variable {ctx : Context α} {shape : Shape α}

/-- Fields that are bound to proper values and have proper defaults make a proper record. -/
theorem proper_materialize {fields : List (ShapeField α)} {values : List (Option (Value α))}
    (hdefault : ∀ field ∈ fields, ∀ v, field.default? = some v → v.Proper)
    (hvalues : ∀ b ∈ fields.zip values, ∀ v, b.2 = some v → v.Proper) (name : String) :
    (Value.record name (Arguments.ofBindings fields values).materialize).Proper := by
  refine Value.everywhere_iff.mpr ⟨Entries.keys_ofPairs_nodup _, fun c hc => ?_⟩
  obtain ⟨e, he, rfl⟩ := List.mem_map.mp hc
  obtain ⟨d, -, hd⟩ := List.mem_filterMap.mp (Entries.mem_of_mem_ofPairs he)
  obtain ⟨v, hv, rfl⟩ := Option.map_eq_some_iff.mp hd
  unfold Arguments.value? at hv
  split at hv
  · rename_i bound hlookup
    cases hv
    obtain ⟨b, hb, -, hbound⟩ := Arguments.exists_binding_of_lookup hlookup
    exact hvalues b hb v hbound
  · obtain ⟨declared, hfind, hdefaults⟩ := Option.bind_eq_some_iff.mp hv
    obtain ⟨field, hfield, rfl⟩ := List.mem_map.mp (List.mem_of_find?_eq_some hfind)
    exact hdefault field hfield v hdefaults

/-- What is decoded without constructors is proper if the defaults are. -/
theorem proper_of_decodeAt (hreg : ctx.registry = Registry.defaults) :
    shape.Everywhere Shape.ConstructorFree → shape.Everywhere Shape.ProperDefaults →
      ∀ (site : Site) (node : Node) (value : Value α),
        ctx.decodeAt shape site node = .ok value → value.Proper := by
  have hnull : (Value.null : Value α).Proper := Value.proper_of_no_children rfl trivial
  induction shape using Shape.induction with
  | leaf kind nullable =>
    intro _ _ site node value h
    cases hf : (Shape.leaf (α := α) kind nullable).foreign with
    | true =>
      rw [decodeAt_foreign hreg hf] at h
      cases h
    | false =>
      rw [decodeAt_leaf hreg hf] at h
      have hshape : HasShape (.leaf kind nullable) value :=
        hasShape_of_guardNull h hasShape_of_decodeLeaf
      cases hshape <;> exact Value.proper_of_no_children rfl trivial
  | collection kind element nullable ih =>
    intro hc hd site node value h
    rw [decodeAt_collection hreg] at h
    rcases guardNull_eq_ok h with ⟨-, rfl⟩ | ⟨-, h⟩
    · exact hnull
    obtain ⟨values, rfl, hparts⟩ := exists_parts_of_collection h
    have hvalues : ∀ v ∈ values, v.Proper := by
      intro v hv
      obtain ⟨site', node', he⟩ := hparts v hv
      exact ih hc.element hd.element site' node' v he
    cases kind with
    | list => exact Value.everywhere_iff.mpr ⟨trivial, hvalues⟩
    | set => exact Value.proper_setOf hvalues
  | map inner nullable ih =>
    intro hc hd site node value h
    rw [decodeAt_map hreg] at h
    rcases guardNull_eq_ok h with ⟨-, rfl⟩ | ⟨-, h⟩
    · exact hnull
    obtain ⟨es, rfl, hkeys, hparts⟩ := exists_parts_of_map h
    refine Value.everywhere_iff.mpr ⟨hkeys, fun child hm => ?_⟩
    obtain ⟨e, he, rfl⟩ := List.mem_map.mp hm
    obtain ⟨site', node', hentry⟩ := hparts e he
    exact ih hc.value hd.value site' node' e.2 hentry
  | record name fields constructor? nullable ih =>
    intro hc hd site node value h
    have hnone : constructor? = none := hc.self
    subst hnone
    rw [decodeAt_record hreg] at h
    cases ho : node.offersFields nullable with
    | false =>
      obtain ⟨-, rfl⟩ := null_of_guardRecord ho h
      exact hnull
    | true =>
      rw [guardRecord_offers ho] at h
      rcases values_or_failures (ctx.length_fieldOutcomes fields site node) with
        ⟨values, hv⟩ | ⟨children, hc⟩
      · rw [hv, buildRecord_of_values] at h
        cases h
        refine proper_materialize hd.self (fun b hbm v hbound => ?_) name
        obtain ⟨i, hi⟩ := Outcome.exists_outcome_of_mem_zip hv hbm
        have hfield : b.1 ∈ fields := (List.of_mem_zip hbm).1
        have hproper := ih b.1 hfield (hc.field hfield) (hd.field hfield) (i :: site)
        exact (bindField_spec (fun _ => hnull) hproper hi).1 v hbound
      · rw [buildRecord_of_failures hc] at h
        cases h

end Context
end TypedConfig
