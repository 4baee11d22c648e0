/-
# The values of a shape

A value is of a shape if it is built as the shape says, at every depth: whole
numbers in range, constants among the declared ones, sets without an element that
equals a later one, records with exactly the declared fields in declared order.
Null is of a shape only if the shape accepts it. What the application makes with
constructors of its own is of no shape.

Key definitions: `HasShape`, `HaveShapes`, `Shape.Structural`,
`Shape.ConstructorFree`, `Shape.DistinctFields`, `Shape.DefaultsFit`.
-/
import TypedConfig.Proofs.Shape

namespace TypedConfig

variable {α : Type}

mutual

/-- The value is one of the shape. -/
inductive HasShape : Shape α → Value α → Prop
  | null {shape : Shape α} (h : shape.nullable = true) : HasShape shape .null
  | string {nullable : Bool} {s : String} : HasShape (.leaf .string nullable) (.string s)
  | long {nullable : Bool} {k : Int64} : HasShape (.leaf .long nullable) (.long k)
  | int {nullable : Bool} {k : Int64} (hlo : Int32.minValue.toInt ≤ k.toInt)
      (hhi : k.toInt ≤ Int32.maxValue.toInt) :
      HasShape (.leaf .int nullable) (.long k)
  | double {nullable : Bool} {x : Double} : HasShape (.leaf .double nullable) (.double x)
  | boolean {nullable : Bool} {b : Bool} : HasShape (.leaf .boolean nullable) (.boolean b)
  | path {nullable : Bool} {p : Path} : HasShape (.leaf .path nullable) (.path p)
  | enum {name : String} {constants : List String} {nullable : Bool} {c : String}
      (h : c ∈ constants) : HasShape (.leaf (.enum name constants) nullable) (.enum c)
  | list {element : Shape α} {nullable : Bool} {xs : List (Value α)}
      (h : ∀ x ∈ xs, HasShape element x) : HasShape (.collection .list element nullable) (.list xs)
  | set {element : Shape α} {nullable : Bool} {xs : List (Value α)}
      (h : ∀ x ∈ xs, HasShape element x) (hd : xs.Pairwise fun x y => x.equals y = false) :
      HasShape (.collection .set element nullable) (.set xs)
  | map {value : Shape α} {nullable : Bool} {es : List (String × Value α)}
      (hk : (Entries.keys es).Nodup) (h : ∀ e ∈ es, HasShape value e.2) :
      HasShape (.map value nullable) (.map es)
  | record {name : String} {fields : List (Field α (Shape α))} {nullable : Bool}
      {es : List (String × Value α)} (h : HaveShapes fields es) :
      HasShape (.record name fields none nullable) (.record name es)

/-- The entries are those of the fields, one by one, each with a value of the shape of its
field. -/
inductive HaveShapes : List (Field α (Shape α)) → List (String × Value α) → Prop
  | nil : HaveShapes [] []
  | cons {name : String} {shape : Shape α} {default? : Option (Value α)}
      {fields : List (Field α (Shape α))} {x : Value α} {es : List (String × Value α)}
      (h : HasShape shape x) (hs : HaveShapes fields es) :
      HaveShapes (⟨name, shape, default?⟩ :: fields) ((name, x) :: es)

end

/-- The entries of a record have exactly the declared names, in declared order. -/
theorem HaveShapes.keys_eq : ∀ {fields : List (ShapeField α)} {es : List (String × Value α)},
    HaveShapes fields es → Entries.keys es = fields.map (·.name)
  | [], _, .nil => rfl
  | ⟨name, shape, default?⟩ :: fields, _, .cons h hs => by
    rw [List.map_cons, ← hs.keys_eq]
    rfl

/-- Each field has a value of its shape, under its name and at its number. -/
theorem HaveShapes.exists_entry : ∀ {fields : List (ShapeField α)}
    {es : List (String × Value α)}, HaveShapes fields es → ∀ {i : Nat} {field : ShapeField α},
      fields[i]? = some field → ∃ x, es[i]? = some (field.name, x) ∧ HasShape field.shape x
  | _, _, .cons (x := x) h _, 0, _, hf => by
    cases hf
    exact ⟨x, rfl, h⟩
  | _, _, .cons _ hs, i + 1, _, hf => hs.exists_entry (i := i) hf

namespace Shape

/-- A shape that the built-in decoders know and that makes no object of the application,
said of the shape without its parts. -/
def Structural : Shape α → Prop
  | .leaf (.named _) _ => False
  | .record _ _ constructor? _ => constructor? = none
  | _ => True

/-- A record without a constructor, said of the shape without its parts. -/
def ConstructorFree : Shape α → Prop
  | .record _ _ constructor? _ => constructor? = none
  | _ => True

/-- No two fields of a record have the same name, said of the shape without its parts. -/
def DistinctFields : Shape α → Prop
  | .record _ fields _ _ => (fields.map (·.name)).Nodup
  | _ => True

/-- The defaults of a record are of the shapes of their fields, said of the shape without
its parts. -/
def DefaultsFit : Shape α → Prop
  | .record _ fields _ _ =>
    ∀ field ∈ fields, ∀ value, field.default? = some value → HasShape field.shape value
  | _ => True

theorem Structural.not_foreign {shape : Shape α} (h : shape.Structural) :
    shape.foreign = false := by
  cases shape with
  | leaf kind nullable =>
    cases kind with
    | named name => exact absurd h id
    | _ => rfl
  | _ => rfl

theorem Structural.constructorFree {shape : Shape α} (h : shape.Structural) :
    shape.ConstructorFree := by
  cases shape with
  | record name fields constructor? nullable => exact h
  | _ => exact trivial

end Shape
end TypedConfig
