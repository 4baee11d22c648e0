/-
# The parts of a shape

A shape holds other shapes: that of the elements, of the values or of each field.
What is shown of a shape from its direct parts holds of every shape
(`Shape.induction`), and `Shape.Everywhere` says of a property that the shape has
it together with all the shapes inside it.

Key definitions: `Shape.foreign`, `Shape.Everywhere`.
Key theorems: `Shape.induction`, `Shape.everywhere_record_iff`.
-/
import TypedConfig.Shape

namespace TypedConfig
namespace Shape

variable {α : Type}

/-- Whether only decoders of the application can know the shape. -/
def foreign : Shape α → Bool
  | .leaf (.named _) _ => true
  | _ => false

@[simp] theorem foreign_withNullable (nullable : Bool) (shape : Shape α) :
    (shape.withNullable nullable).foreign = shape.foreign := by
  cases shape with
  | leaf kind _ => cases kind <;> rfl
  | _ => rfl

theorem isRecord_eq_true_iff {shape : Shape α} :
    shape.isRecord = true ↔ ∃ name fields constructor? nullable,
      shape = .record name fields constructor? nullable := by
  constructor
  · intro h
    cases shape with
    | record name fields constructor? nullable => exact ⟨name, fields, constructor?, nullable, rfl⟩
    | _ => simp [isRecord] at h
  · rintro ⟨name, fields, constructor?, nullable, rfl⟩
    rfl

/-- Induction over shapes, each from its direct parts. -/
@[elab_as_elim]
theorem induction {motive : Shape α → Prop}
    (leaf : ∀ kind nullable, motive (.leaf kind nullable))
    (collection : ∀ kind element nullable, motive element →
      motive (.collection kind element nullable))
    (map : ∀ value nullable, motive value → motive (.map value nullable))
    (record : ∀ name (fields : List (ShapeField α)) constructor? nullable,
      (∀ field ∈ fields, motive field.shape) →
      motive (.record name fields constructor? nullable)) :
    ∀ shape, motive shape
  | .leaf kind nullable => leaf kind nullable
  | .collection kind element nullable =>
    collection kind element nullable (induction leaf collection map record element)
  | .map value nullable => map value nullable (induction leaf collection map record value)
  | .record name fields constructor? nullable =>
    record name fields constructor? nullable (ofFields fields)
where
  ofFields : ∀ fields : List (ShapeField α), ∀ field ∈ fields, motive field.shape
    | [], _, h => absurd h List.not_mem_nil
    | ⟨name, shape, default?⟩ :: fields, field, h => by
      rcases List.mem_cons.mp h with rfl | h
      · exact induction leaf collection map record shape
      · exact ofFields fields field h

mutual

/-- The shape and all shapes inside it have the property. -/
def Everywhere (P : Shape α → Prop) : Shape α → Prop
  | .leaf kind nullable => P (.leaf kind nullable)
  | .collection kind element nullable =>
    P (.collection kind element nullable) ∧ Everywhere P element
  | .map value nullable => P (.map value nullable) ∧ Everywhere P value
  | .record name fields constructor? nullable =>
    P (.record name fields constructor? nullable) ∧ EveryField P fields

/-- The shapes of all fields and all shapes inside them have the property. -/
def EveryField (P : Shape α → Prop) : List (Field α (Shape α)) → Prop
  | [] => True
  | ⟨_, shape, _⟩ :: fields => Everywhere P shape ∧ EveryField P fields

end

variable {P Q : Shape α → Prop}

theorem everyField_iff : ∀ {fields : List (ShapeField α)},
    EveryField P fields ↔ ∀ field ∈ fields, field.shape.Everywhere P
  | [] => by simp [EveryField]
  | ⟨name, shape, default?⟩ :: fields => by
    have ih : EveryField P fields ↔ ∀ field ∈ fields, field.shape.Everywhere P := everyField_iff
    simp [EveryField, ih]

theorem everywhere_record_iff {name : String} {fields : List (ShapeField α)}
    {constructor? : Option (Constructor α)} {nullable : Bool} :
    (Shape.record name fields constructor? nullable).Everywhere P ↔
      P (.record name fields constructor? nullable) ∧
        ∀ field ∈ fields, field.shape.Everywhere P := by
  rw [Everywhere, everyField_iff]

/-- The shape itself has what it has everywhere. -/
theorem Everywhere.self {shape : Shape α} (h : shape.Everywhere P) : P shape := by
  cases shape with
  | leaf kind nullable => simpa only [Everywhere] using h
  | collection kind element nullable =>
    rw [Everywhere] at h
    exact h.1
  | map value nullable =>
    rw [Everywhere] at h
    exact h.1
  | record name fields constructor? nullable =>
    rw [Everywhere] at h
    exact h.1

theorem Everywhere.element {kind : Collection} {element : Shape α} {nullable : Bool}
    (h : (Shape.collection kind element nullable).Everywhere P) : element.Everywhere P := by
  rw [Everywhere] at h
  exact h.2

theorem Everywhere.value {value : Shape α} {nullable : Bool}
    (h : (Shape.map value nullable).Everywhere P) : value.Everywhere P := by
  rw [Everywhere] at h
  exact h.2

theorem Everywhere.field {name : String} {fields : List (ShapeField α)}
    {constructor? : Option (Constructor α)} {nullable : Bool}
    (h : (Shape.record name fields constructor? nullable).Everywhere P)
    {field : ShapeField α} (hf : field ∈ fields) : field.shape.Everywhere P :=
  (everywhere_record_iff.mp h).2 field hf

/-- What every shape has, a shape has everywhere. -/
theorem everywhere_of_forall (h : ∀ part, P part) (shape : Shape α) : shape.Everywhere P := by
  induction shape using Shape.induction with
  | leaf kind nullable => exact h _
  | collection kind element nullable ih => exact ⟨h _, ih⟩
  | map value nullable ih => exact ⟨h _, ih⟩
  | record name fields constructor? nullable ih => exact everywhere_record_iff.mpr ⟨h _, ih⟩

/-- What each shape has that has `P`, a shape has everywhere that has `P` everywhere. -/
theorem Everywhere.imp {shape : Shape α} (hPQ : ∀ part, P part → Q part) :
    shape.Everywhere P → shape.Everywhere Q := by
  induction shape using Shape.induction with
  | leaf kind nullable => exact hPQ _
  | collection kind element nullable ih => exact fun h => ⟨hPQ _ h.self, ih h.element⟩
  | map value nullable ih => exact fun h => ⟨hPQ _ h.self, ih h.value⟩
  | record name fields constructor? nullable ih =>
    intro h
    exact everywhere_record_iff.mpr ⟨hPQ _ h.self, fun field hf => ih field hf (h.field hf)⟩

end Shape
end TypedConfig
