/-
# Decoding

Decoding turns a node into a value of a shape. The registry of the context picks
the decoder of each shape, and every part of the node is attempted, so that one
failed decoding reports all that is wrong. The parts of a node are preprocessed
just before they are decoded.

A custom value made on the way is told apart by the site of its making: `site`
is extended by the number of the part whenever a part is decoded.

Key definitions: `Context.decodeWith`, `Context.decode`.
-/
import TypedConfig.Context
import TypedConfig.Decoding.Leaf
import TypedConfig.Text.Pieces

namespace TypedConfig
namespace Context

variable {α : Type}

/-- Decodes a node that the application's decoders hand back. -/
abbrev Delegate (α : Type) := Shape α → Site → Node → Outcome (Value α)

/-- What the application's decoders may ask of the decoding. -/
def engine (ctx : Context α) (delegate : Delegate α) : Engine α where
  decode site node shape := delegate shape site node
  resolveField := ctx.resolveField
  preprocess := ctx.preprocess

/-- Deals with a node that is absent or null, and leaves every other to `decoded`. -/
@[macro_inline]
def guardNull (nullable : Bool) (node : Node) (decoded : Outcome (Value α)) :
    Outcome (Value α) :=
  match node with
  | .undefined => if nullable then .ok .null else .fail .missingValue
  | .null _ => if nullable then .ok .null else .fail (.ofNull node)
  | _ => decoded

/-- Decodes with the decoder of the shape; `builtin` is what the built-in one gives. -/
@[macro_inline]
def dispatch (ctx : Context α) (delegate : Delegate α) (shape : Shape α) (site : Site)
    (node : Node) (builtin : Outcome (Value α)) : Outcome (Value α) :=
  match ctx.registry.resolve shape with
  | .error failures => .error failures
  | .ok (.builtin _) => builtin
  | .ok (.custom decoder) =>
    if decoder.guardsNull then
      guardNull shape.nullable node (decoder.run (ctx.engine delegate) site node shape)
    else decoder.run (ctx.engine delegate) site node shape

/-! ### Collections -/

/-- The nodes of the elements that a node offers to a collection: those of an array,
preprocessed, or the parts of a text between its commas, without the blanks around
them. -/
def elements? (ctx : Context α) : Node → Option (List Node)
  | .array elements _ => some (elements.map ctx.preprocess)
  | .string value place =>
    some ((Text.pieces ',' value.toList).map fun piece =>
      .string (String.ofList (Text.trim piece)) place)
  | _ => none

/-- Decodes a list or a set of elements of the given shape. -/
def decodeCollection (ctx : Context α) (kind : Collection) (element : Shape α)
    (decodeElement : Site → Node → Outcome (Value α)) (site : Site) (node : Node) :
    Outcome (Value α) :=
  match ctx.registry.resolve element with
  | .error failures => .error failures
  | .ok _ =>
    match ctx.elements? node with
    | none => .fail (.ofCollection kind.name node)
    | some nodes =>
      ((Outcome.sequence (nodes.mapIdx fun i n => decodeElement (i :: site) n)).wrap
        (.elements kind.name (node.path?.getD ""))).map kind.collect

/-- Decodes one entry of a map. -/
def decodeEntry (ctx : Context α) (decodeValue : Site → Node → Outcome (Value α)) (site : Site)
    (entry : String × Node) : Outcome (String × Value α) :=
  ((decodeValue site (ctx.preprocess entry.2)).wrap (.field entry.1)).map (entry.1, ·)

/-- Decodes a map with values of the given shape. Its keys are taken as they are. -/
def decodeMap (ctx : Context α) (value : Shape α)
    (decodeValue : Site → Node → Outcome (Value α)) (site : Site) (node : Node) :
    Outcome (Value α) :=
  match node with
  | .map entries place =>
    match ctx.registry.resolve value with
    | .error failures => .error failures
    | .ok _ =>
      ((Outcome.sequence (entries.mapIdx fun i e => ctx.decodeEntry decodeValue (i :: site) e)).wrap
        (.elements "Map" place.path)).map fun pairs => .map (Entries.ofPairs pairs)
  | _ => .fail (.ofCollection "Map" node)

/-! ### Records -/

/-- Binds a field from the node of its record: nothing when the field is absent and has
a default. -/
def bindField (ctx : Context α) (field : ShapeField α)
    (decodeValue : Site → Node → Outcome (Value α)) (site : Site) (record : Node) :
    Outcome (Option (Value α)) :=
  match ctx.preprocess (ctx.resolveField record field.name) with
  | .undefined =>
    if field.default?.isSome then .ok none
    else if field.shape.nullable then .ok (some .null)
    else .fail .missingValue
  | .null place =>
    if field.shape.nullable then .ok (some .null) else .fail (.ofNull (.null place))
  | node => (decodeValue site node).map some

/-- Binds a field and names it, in the result as in a failure. -/
def bindNamed (ctx : Context α) (field : ShapeField α)
    (decodeValue : Site → Node → Outcome (Value α)) (site : Site) (record : Node) :
    Outcome (Option (String × Value α)) :=
  ((ctx.bindField field decodeValue site record).wrap (.field field.name)).map fun value? =>
    value?.map (field.name, ·)

/-- Makes a record of the outcomes of its fields. -/
def buildRecord (name : String) (fields : List (ShapeField α))
    (constructor? : Option (Constructor α)) (site : Site) (node : Node)
    (outcomes : List (Outcome (Option (String × Value α)))) : Outcome (Value α) :=
  match (Outcome.sequence outcomes).wrap (.record name node.position node.pathOrRoot) with
  | .error failures => .error failures
  | .ok bound =>
    let args : Arguments α := ⟨Shape.declarations fields, Entries.ofPairs (bound.filterMap id)⟩
    match Shape.instantiate name constructor? args site with
    | .ok value => .ok value
    | .error error => .fail (.constructorRefused name args.text error.message)

/-- Decodes a record unless the node is null or of a kind that holds no fields. -/
@[macro_inline]
def guardRecord (shape : Shape α) (node : Node) (decoded : Outcome (Value α)) :
    Outcome (Value α) :=
  match node with
  | .undefined => if shape.nullable then .ok .null else decoded
  | .null _ => if shape.nullable then .ok .null else .fail (.ofNull node)
  | .map .. => decoded
  | _ => .fail (.ofKind node shape.text)

/-! ### Decoding a shape -/

mutual

/-- Decodes a node as a shape. -/
def decodeWith (ctx : Context α) (delegate : Delegate α) :
    Shape α → Site → Node → Outcome (Value α)
  | .leaf kind nullable, site, node =>
    ctx.dispatch delegate (.leaf kind nullable) site node
      (guardNull nullable node (decodeLeaf kind (Shape.leaf (α := α) kind nullable).text node))
  | .collection kind element nullable, site, node =>
    ctx.dispatch delegate (.collection kind element nullable) site node
      (guardNull nullable node
        (ctx.decodeCollection kind element (decodeWith ctx delegate element) site node))
  | .map value nullable, site, node =>
    ctx.dispatch delegate (.map value nullable) site node
      (guardNull nullable node
        (ctx.decodeMap value (decodeWith ctx delegate value) site node))
  | .record name fields constructor? nullable, site, node =>
    ctx.dispatch delegate (.record name fields constructor? nullable) site node
      (guardRecord (.record name fields constructor? nullable) node
        (buildRecord name fields constructor? site node
          (decodeFields ctx delegate fields 0 site node)))

/-- Binds the fields of a record, the first of which has the given number. -/
def decodeFields (ctx : Context α) (delegate : Delegate α) :
    List (Field α (Shape α)) → Nat → Site → Node → List (Outcome (Option (String × Value α)))
  | [], _, _, _ => []
  | ⟨name, shape, default?⟩ :: fields, i, site, node =>
    ctx.bindNamed ⟨name, shape, default?⟩ (decodeWith ctx delegate shape) (i :: site) node ::
      decodeFields ctx delegate fields (i + 1) site node

end

/-- Decodes with nodes handed back at most `depth` times, one inside the other. -/
def decodeWithin (ctx : Context α) : Nat → Delegate α
  | 0 => ctx.decodeWith fun shape _ _ => .fail (Registry.unsupported shape)
  | depth + 1 => ctx.decodeWith (ctx.decodeWithin depth)

/-- Decodes a node as a shape. -/
def decode (ctx : Context α) (node : Node) (shape : Shape α) : Outcome (Value α) :=
  ctx.decodeWithin ctx.delegationLimit shape [] node

end Context

/-- Decodes a node as a shape with the built-in decoders. -/
def decode {α : Type} (node : Node) (shape : Shape α) : Outcome (Value α) :=
  (Context.ofRegistry Registry.defaults).decode node shape

end TypedConfig
