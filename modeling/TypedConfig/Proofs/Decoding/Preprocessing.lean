/-
# Every node is preprocessed once

Substitutions run while a tree is decoded, on each part just before it is decoded.
With the built-in decoders the result is that of rewriting the tree first, every
node below the root once, and decoding it without preprocessors
(`decodeAt_rewriteBelow`). So the parts of a text between its commas are not
substituted again, and neither is a text that was put in.

The induction is on the shape, for all nodes at once. At each level the node has
the same kind and place in both trees, and what a part is decoded from is the
rewritten part.

Key definitions: `Context.withoutPreprocessors`.
Key theorems: `Context.resolveField_rewriteBelow`, `Context.elements?_rewriteBelow`,
`Context.bindField_rewriteBelow`, `Context.decodeAt_rewriteBelow`.
-/
import TypedConfig.Proofs.Decoding.Builtin
import TypedConfig.Proofs.Substitution

namespace TypedConfig
namespace Context

open Substitution

variable {α : Type} {ctx : Context α} {lookups : List (String → Option String)}

/-- The context that leaves every node as it is before it is decoded. -/
def withoutPreprocessors (ctx : Context α) : Context α := { ctx with preprocessors := [] }

theorem preprocess_withoutPreprocessors (node : Node) :
    ctx.withoutPreprocessors.preprocess node = node := rfl

theorem preprocess_eq_applyAll
    (hpre : ctx.preprocessors = lookups.map Substitution.preprocessor) (node : Node) :
    ctx.preprocess node = applyAll lookups node := by
  rw [preprocess, hpre, applyAll]

/-- The child of a field is the same one in the rewritten tree, but rewritten. -/
theorem resolveField_rewriteBelow (node : Node) (name : String) :
    ctx.withoutPreprocessors.resolveField (rewriteBelow lookups node) name =
      rewriteBelow lookups (applyAll lookups (ctx.resolveField node name)) := by
  have hchildren : ctx.spellings.map (fun spelling =>
      (rewriteBelow lookups node).atKey (spelling name)) =
      (ctx.spellings.map fun spelling => node.atKey (spelling name)).map fun child =>
        rewriteBelow lookups (applyAll lookups child) := by
    rw [List.map_map]
    exact List.map_congr_left fun spelling _ => atKey_rewriteBelow node (spelling name)
  have hdefined : ((·.isDefined) ∘ fun child =>
      rewriteBelow lookups (applyAll lookups child)) = (·.isDefined) := by
    funext child
    rw [Function.comp_apply, isDefined_rewriteBelow, isDefined_applyAll]
  rw [resolveField, resolveField]
  change ((ctx.spellings.map _).find? _).getD _ = _
  rw [hchildren, List.find?_map, hdefined]
  cases (ctx.spellings.map fun spelling => node.atKey (spelling name)).find? (·.isDefined) with
  | none => simp [applyAll_no_text]
  | some child => rfl

/-- The elements of the rewritten tree are those of the tree, rewritten below. -/
theorem elements?_rewriteBelow (hpre : ctx.preprocessors = lookups.map Substitution.preprocessor)
    (node : Node) :
    ctx.withoutPreprocessors.elements? (rewriteBelow lookups node) =
      (ctx.elements? node).map fun nodes => nodes.map (rewriteBelow lookups) := by
  cases node with
  | array elements place =>
    rw [rewriteBelow_array, elements?, elements?, Option.map_some, List.map_map, List.map_map]
    congr 1
    refine List.map_congr_left fun n _ => ?_
    rw [Function.comp_apply, Function.comp_apply, preprocess_eq_applyAll hpre]
    rfl
  | string value place =>
    rw [rewriteBelow_string, elements?, elements?, Option.map_some, List.map_map]
    congr 1
    refine List.map_congr_left fun piece _ => ?_
    rw [Function.comp_apply, rewriteBelow_string]
  | _ => simp [rewriteBelow, elements?]

/-! ### One level of a decoding -/

theorem guardNull_rewriteBelow (nullable : Bool) (node : Node)
    {decoded decoded' : Outcome (Value α)} (h : decoded = decoded') :
    guardNull nullable node decoded =
      guardNull nullable (rewriteBelow lookups node) decoded' := by
  cases node <;> simp [rewriteBelow, guardNull, h]

theorem guardRecord_rewriteBelow (shape : Shape α) (node : Node)
    {decoded decoded' : Outcome (Value α)} (h : decoded = decoded') :
    guardRecord shape node decoded =
      guardRecord shape (rewriteBelow lookups node) decoded' := by
  subst h
  cases node with
  | array elements place =>
    rw [rewriteBelow_array]
    rfl
  | _ => simp only [rewriteBelow, guardRecord]

theorem decodeLeaf_rewriteBelow (kind : Leaf) (text : String) (node : Node) :
    decodeLeaf (α := α) kind text (rewriteBelow lookups node) = decodeLeaf kind text node := by
  cases node with
  | map entries place =>
    rw [rewriteBelow_map]
    cases kind <;> rfl
  | array elements place =>
    rw [rewriteBelow_array]
    cases kind <;> rfl
  | _ => simp only [rewriteBelow]

/-- A field is bound to the same in the rewritten tree if its shape is decoded to the same. -/
theorem bindField_rewriteBelow (hpre : ctx.preprocessors = lookups.map Substitution.preprocessor)
    {field : ShapeField α} {decodeValue decodeValue' : Site → Node → Outcome (Value α)}
    (h : ∀ site node, decodeValue site node = decodeValue' site (rewriteBelow lookups node))
    (site : Site) (node : Node) :
    ctx.bindField field decodeValue site node =
      ctx.withoutPreprocessors.bindField field decodeValue' site (rewriteBelow lookups node) := by
  rw [bindField, bindField, preprocess_eq_applyAll hpre, preprocess_withoutPreprocessors,
    resolveField_rewriteBelow]
  cases applyAll lookups (ctx.resolveField node field.name) with
  | undefined => simp only [rewriteBelow]
  | null place => simp only [rewriteBelow]
  | map entries place => simp only [h, rewriteBelow_map]
  | array elements place => simp only [h, rewriteBelow_array]
  | _ => simp only [h, rewriteBelow]

theorem decodeEntry_rewriteBelow (hpre : ctx.preprocessors = lookups.map Substitution.preprocessor)
    {decodeValue decodeValue' : Site → Node → Outcome (Value α)}
    (h : ∀ site node, decodeValue site node = decodeValue' site (rewriteBelow lookups node))
    (site : Site) (entry : String × Node) :
    ctx.decodeEntry decodeValue site entry =
      ctx.withoutPreprocessors.decodeEntry decodeValue' site
        (entry.1, rewriteBelow lookups (applyAll lookups entry.2)) := by
  rw [decodeEntry, decodeEntry, preprocess_eq_applyAll hpre, preprocess_withoutPreprocessors, h]

/-- A collection is filled with the same in the rewritten tree if its elements are decoded
to the same. -/
theorem decodeCollection_rewriteBelow (hreg : ctx.registry = Registry.defaults)
    (hpre : ctx.preprocessors = lookups.map Substitution.preprocessor) (kind : Collection)
    (element : Shape α) {decodeElement decodeElement' : Site → Node → Outcome (Value α)}
    (h : ∀ site node, decodeElement site node = decodeElement' site (rewriteBelow lookups node))
    (site : Site) (node : Node) :
    ctx.decodeCollection kind element decodeElement site node =
      ctx.withoutPreprocessors.decodeCollection kind element decodeElement' site
        (rewriteBelow lookups node) := by
  have hreg' : ctx.withoutPreprocessors.registry = Registry.defaults := hreg
  cases he : element.foreign with
  | true => rw [decodeCollection_foreign hreg kind he, decodeCollection_foreign hreg' kind he]
  | false =>
    rw [decodeCollection_builtin hreg kind he, decodeCollection_builtin hreg' kind he,
      elements?_rewriteBelow hpre]
    cases ctx.elements? node with
    | none =>
      simp only [Option.map_none, Failure.ofCollection, typeName_rewriteBelow,
        pathOrRoot_rewriteBelow, position_rewriteBelow]
    | some nodes =>
      simp only [Option.map_some, mapIdx_map, ← h, Node.path?, place?_rewriteBelow]

/-- A map is filled with the same in the rewritten tree if its values are decoded to the
same. -/
theorem decodeMap_rewriteBelow (hreg : ctx.registry = Registry.defaults)
    (hpre : ctx.preprocessors = lookups.map Substitution.preprocessor) (value : Shape α)
    {decodeValue decodeValue' : Site → Node → Outcome (Value α)}
    (h : ∀ site node, decodeValue site node = decodeValue' site (rewriteBelow lookups node))
    (site : Site) (node : Node) :
    ctx.decodeMap value decodeValue site node =
      ctx.withoutPreprocessors.decodeMap value decodeValue' site (rewriteBelow lookups node) := by
  have hreg' : ctx.withoutPreprocessors.registry = Registry.defaults := hreg
  cases node with
  | map entries place =>
    rw [rewriteBelow_map]
    cases hv : value.foreign with
    | true => rw [decodeMap_foreign hreg hv, decodeMap_foreign hreg' hv]
    | false =>
      rw [decodeMap_builtin hreg hv, decodeMap_builtin hreg' hv, mapIdx_map]
      simp only [decodeEntry_rewriteBelow hpre h]
  | array elements place =>
    rw [rewriteBelow_array]
    rfl
  | _ => simp only [rewriteBelow, decodeMap]

/-! ### All levels -/

/-- **Every node is preprocessed once, before it is decoded.** Decoding a tree with
substitutions is decoding, without preprocessors, the tree in which every node below the
root has been rewritten once from the top down. -/
theorem decodeAt_rewriteBelow (hreg : ctx.registry = Registry.defaults)
    (hpre : ctx.preprocessors = lookups.map Substitution.preprocessor) (shape : Shape α) :
    ∀ (site : Site) (node : Node), ctx.decodeAt shape site node =
      ctx.withoutPreprocessors.decodeAt shape site (rewriteBelow lookups node) := by
  have hreg' : ctx.withoutPreprocessors.registry = Registry.defaults := hreg
  induction shape using Shape.induction with
  | leaf kind nullable =>
    intro site node
    cases hs : (Shape.leaf (α := α) kind nullable).foreign with
    | true => rw [decodeAt_foreign hreg hs, decodeAt_foreign hreg' hs]
    | false =>
      rw [decodeAt_leaf hreg hs, decodeAt_leaf hreg' hs]
      exact guardNull_rewriteBelow nullable node (decodeLeaf_rewriteBelow kind _ node).symm
  | collection kind element nullable ih =>
    intro site node
    rw [decodeAt_collection hreg, decodeAt_collection hreg']
    refine guardNull_rewriteBelow nullable node ?_
    exact decodeCollection_rewriteBelow hreg hpre kind element ih site node
  | map value nullable ih =>
    intro site node
    rw [decodeAt_map hreg, decodeAt_map hreg']
    refine guardNull_rewriteBelow nullable node ?_
    exact decodeMap_rewriteBelow hreg hpre value ih site node
  | record name fields constructor? nullable ih =>
    intro site node
    have houtcomes : ctx.fieldOutcomes fields site node =
        ctx.withoutPreprocessors.fieldOutcomes fields site (rewriteBelow lookups node) := by
      rw [fieldOutcomes, fieldOutcomes, List.mapIdx_eq_mapIdx_iff]
      intro i hi
      exact bindField_rewriteBelow hpre (ih _ (List.getElem_mem hi)) (i :: site) node
    rw [decodeAt_record hreg, decodeAt_record hreg', houtcomes]
    refine guardRecord_rewriteBelow _ node ?_
    simp only [buildRecord, pathOrRoot_rewriteBelow, position_rewriteBelow]

/-- The value of one variable refers to the other. -/
def chainedLookup : String → Option String
  | "A" => some "$\x7bB\x7d, x"
  | "B" => some "b"
  | _ => none

/-- A context that substitutes both. -/
def chainedContext : Context Unit :=
  (ofRegistry .defaults).withPreprocessor (preprocessor chainedLookup)

/-- A record in a record, with a list of names. -/
def outerShape : Shape Unit :=
  .record "Outer"
    [⟨"inner", .record "Inner"
      [⟨"names", .collection .list (.leaf .string false) false, none⟩] none false, none⟩]
    none false

/-- The names are written as one text. -/
def outerNode (names : String) : Node :=
  .map [("inner", .map [("names", .string names ⟨.unknown, "<root>.inner.names"⟩)]
    ⟨.unknown, "<root>.inner"⟩)] ⟨.unknown, "<root>"⟩

theorem substitute_chainedLookup :
    substitute chainedLookup "$\x7bA\x7d, y" = "$\x7bB\x7d, x, y" := by
  have h : segments ('$' :: '\x7b' :: ['A', '\x7d', ',', ' ', 'y']) =
      [.reference ['A'], .literal ',', .literal ' ', .literal 'y'] := by
    have hr : reference? ['A', '\x7d', ',', ' ', 'y'] = some (['A'], [',', ' ', 'y']) := rfl
    rw [segments_reference hr]
    simp [segments]
  change String.ofList ((segments ('$' :: '\x7b' :: ['A', '\x7d', ',', ' ', 'y'])).flatMap _) = _
  rw [h]
  rfl

theorem rewriteBelow_outerNode :
    rewriteBelow [chainedLookup] (outerNode "$\x7bA\x7d, y") = outerNode "$\x7bB\x7d, x, y" := by
  have happly (place : Place) : applyAll [chainedLookup] (.string "$\x7bA\x7d, y" place) =
      .string "$\x7bB\x7d, x, y" place := by
    rw [← substitute_chainedLookup]
    rfl
  simp [outerNode, applyAll_no_text, happly]

/-- The first variable stands for its own value, which is split but not looked at again. -/
theorem decodeAt_outerNode :
    chainedContext.registry = .defaults ∧
      chainedContext.preprocessors = [chainedLookup].map preprocessor ∧
      chainedContext.decodeAt outerShape [] (outerNode "$\x7bA\x7d, y") =
        .ok (.record "Outer" [("inner", .record "Inner"
          [("names", .list [.string "$\x7bB\x7d", .string "x", .string "y"])])]) := by
  have hreg : chainedContext.registry = .defaults := rfl
  have hpre : chainedContext.preprocessors = [chainedLookup].map preprocessor := rfl
  refine ⟨hreg, hpre, ?_⟩
  rw [decodeAt_rewriteBelow hreg hpre outerShape [] (outerNode "$\x7bA\x7d, y"),
    rewriteBelow_outerNode]
  rfl

end Context
end TypedConfig
