/-
# Lists written as one text

A list or a set may be written as a text with commas between its elements. That
text is taken apart into what was put between the commas (`Text.pieces_intercalate`),
without the blanks around it (`Text.trim_padded`), and each part is decoded as a
text that stands where the whole one stands. So it gives what an array of the
parts gives; failures of elements differ only in the places that they name
(`decodeAt_separated`).

What carries this is that a text is decoded alike wherever it stands
(`decodeAt_text`), by induction on the shape: only the shapes of leaves, lists and
sets take texts, and the elements of the latter two are texts again.

Key definitions: `Failure.unplaced`, `Failure.UpToPlaces`, `PaddedText`.
Key theorems: `Context.decodeAt_text`, `Context.decodeAt_separated`.
-/
import TypedConfig.Proofs.Blank
import TypedConfig.Proofs.Comparison
import TypedConfig.Proofs.Decoding.Builtin
import TypedConfig.Proofs.Decoding.Leaf
import TypedConfig.Proofs.Pieces

namespace TypedConfig

/-! ### Texts between commas -/

/-- A text without commas, and the blanks that are written around it. -/
structure PaddedText where
  before : String
  text : String
  after : String
  blank_before : ∀ c ∈ before.toList, Text.isBlank c = true
  blank_after : ∀ c ∈ after.toList, Text.isBlank c = true
  no_comma : ',' ∉ text.toList

namespace PaddedText

/-- The text with its blanks. -/
def written (t : PaddedText) : String := t.before ++ t.text ++ t.after

/-- All texts with their blanks, joined by commas. -/
def joined (ts : NonEmpty PaddedText) : String := ",".intercalate (ts.toList.map written)

/-- The texts without any blanks around them, as nodes each of which has a place of its own. -/
def nodes (place : Nat → Place) (ts : NonEmpty PaddedText) : List Node :=
  ts.toList.mapIdx fun i t => .string (Text.trimmed t.text) (place i)

theorem trim_written (t : PaddedText) : Text.trim t.written.toList = Text.trim t.text.toList := by
  rw [written, String.toList_append, String.toList_append]
  exact Text.trim_padded t.blank_before t.blank_after

theorem not_mem_written (t : PaddedText) : ',' ∉ t.written.toList := by
  have hcomma : Text.isBlank ',' = false := Text.isBlank_of_visible (by decide) (by decide)
  have hno : ∀ {cs : List Char}, (∀ c ∈ cs, Text.isBlank c = true) → ',' ∉ cs := by
    intro cs h hm
    rw [h _ hm] at hcomma
    cases hcomma
  rw [written, String.toList_append, String.toList_append, List.mem_append, List.mem_append]
  rintro ((h | h) | h)
  · exact hno t.blank_before h
  · exact t.no_comma h
  · exact hno t.blank_after h

theorem pieces_joined (ts : NonEmpty PaddedText) :
    Text.pieces ',' (joined ts).toList = ts.toList.map (·.written.toList) := by
  have hcomma : ",".toList = [','] := rfl
  rw [joined, String.toList_intercalate, hcomma, List.map_map, Text.pieces_intercalate]
  · rfl
  · exact fun h => ts.toList_ne_nil (List.map_eq_nil_iff.mp h)
  · intro p hp
    obtain ⟨t, -, rfl⟩ := List.mem_map.mp hp
    exact t.not_mem_written

end PaddedText

/-! ### Failures without their places -/

namespace Failure

mutual

/-- The failure with no path and no position, at any depth. -/
def unplaced : Failure → Failure
  | .missingValue => .missingValue
  | .nullNotAllowed _ _ => .nullNotAllowed "" .unknown
  | .noDecoder shape => .noDecoder shape
  | .noRecordDecoder shape => .noRecordDecoder shape
  | .wrongKind nodeType _ _ shape => .wrongKind nodeType "" .unknown shape
  | .badValue shape value _ _ => .badValue shape value "" .unknown
  | .notACollection collection nodeType _ _ => .notACollection collection nodeType "" .unknown
  | .elements collection _ ⟨first, rest⟩ =>
    .elements collection "" ⟨first.unplaced, unplacedAll rest⟩
  | .field name ⟨first, rest⟩ => .field name ⟨first.unplaced, unplacedAll rest⟩
  | .record shape _ _ ⟨first, rest⟩ =>
    .record shape .unknown "" ⟨first.unplaced, unplacedAll rest⟩
  | .constructorRefused shape arguments reason => .constructorRefused shape arguments reason
  | .unknownSource identifier => .unknownSource identifier
  | .several ⟨first, rest⟩ => .several ⟨first.unplaced, unplacedAll rest⟩
  | .unparseable source message _ => .unparseable source message .unknown
  | .noParser source extension => .noParser source extension

/-- The failures with no paths and no positions. -/
def unplacedAll : List Failure → List Failure
  | [] => []
  | failure :: rest => failure.unplaced :: unplacedAll rest

end

theorem unplacedAll_eq_map : ∀ fs : List Failure, unplacedAll fs = fs.map unplaced
  | [] => rfl
  | f :: fs => by rw [unplacedAll, unplacedAll_eq_map fs, List.map_cons]

/-- The failures are the same one by one, but for the places that they name. -/
def UpToPlaces (fs gs : List Failure) : Prop := fs.map unplaced = gs.map unplaced

theorem upToPlaces_additive : Outcome.Additive UpToPlaces where
  nil := rfl
  append h h' := by rw [UpToPlaces, List.map_append, List.map_append, h, h']

theorem upToPlaces_elements {fs gs : Failures} (h : UpToPlaces fs.toList gs.toList)
    (collection path path' : String) :
    UpToPlaces [.elements collection path fs] [.elements collection path' gs] := by
  obtain ⟨f, fs⟩ := fs
  obtain ⟨g, gs⟩ := gs
  obtain ⟨hfirst, hrest⟩ := List.cons.inj h
  rw [UpToPlaces, List.map_singleton, List.map_singleton, unplaced, unplaced, hfirst,
    unplacedAll_eq_map, unplacedAll_eq_map, hrest]

end Failure

/-! ### A text at another place -/

open Failure (UpToPlaces)
open Outcome (Compared)

variable {α : Type} (text s : String) (p q : Place)

theorem decodeWhole_text :
    Compared Eq UpToPlaces (decodeWhole text (.string s p)) (decodeWhole text (.string s q)) := by
  unfold decodeWhole
  dsimp only
  cases Number.readInt64 (Text.trim s.toList) with
  | some k => exact .ok rfl
  | none => exact .fail rfl

theorem decodeDouble_text : Compared Eq UpToPlaces (decodeDouble text (.string s p))
    (decodeDouble text (.string s q)) := by
  unfold decodeDouble
  dsimp only
  cases Number.readDouble (Text.trim s.toList) with
  | some x =>
    dsimp only
    split
    · exact .ok rfl
    · exact .fail rfl
  | none => exact .fail rfl

theorem decodeBoolean_text : Compared Eq UpToPlaces (decodeBoolean text (.string s p))
    (decodeBoolean text (.string s q)) := by
  unfold decodeBoolean
  dsimp only
  split
  · exact .ok rfl
  · exact .ok rfl
  · exact .fail rfl

/-- A leaf is read from a text alike wherever that stands. -/
theorem decodeLeaf_text (kind : Leaf) :
    Compared Eq UpToPlaces (decodeLeaf (α := α) kind text (.string s p))
      (decodeLeaf kind text (.string s q)) := by
  cases kind with
  | string => exact .ok rfl
  | long => exact (decodeWhole_text text s p q).map fun _ _ => congrArg Value.long
  | int =>
    rw [decodeLeaf_int, decodeLeaf_int]
    generalize decodeWhole text (.string s p) = o, decodeWhole text (.string s q) = o',
      decodeWhole_text text s p q = h
    cases h with
    | ok h =>
      cases h
      dsimp only
      split
      · exact .ok rfl
      · exact .fail rfl
    | error h => exact .error h
  | double => exact (decodeDouble_text text s p q).map fun _ _ => congrArg Value.double
  | boolean => exact (decodeBoolean_text text s p q).map fun _ _ => congrArg Value.boolean
  | path => exact .ok rfl
  | enum name constants =>
    rw [decodeLeaf_enum, decodeLeaf_enum]
    dsimp only
    cases Shape.constant? constants s with
    | some c => exact .ok rfl
    | none => exact .fail rfl
  | named name => exact .fail rfl

namespace Context

variable {ctx : Context α}

/-- Elements that are decoded alike one by one give sequences that compare. -/
theorem compared_elements {decodeElement : Site → Node → Outcome (Value α)}
    {nodes nodes' : List Node}
    (h : List.Forall₂ (fun n n' => ∀ site,
      Compared Eq UpToPlaces (decodeElement site n) (decodeElement site n')) nodes nodes')
    (site : Site) :
    Compared Eq UpToPlaces
      (Outcome.sequence (nodes.mapIdx fun i n => decodeElement (i :: site) n))
      (Outcome.sequence (nodes'.mapIdx fun i n => decodeElement (i :: site) n)) := by
  have hparts := forall₂_mapIdx h fun i n n' hn => hn (i :: site)
  refine (Compared.sequence Failure.upToPlaces_additive hparts).imp (fun vs vs' hvs => ?_)
    fun _ _ => id
  rwa [List.forall₂_eq_eq_eq] at hvs

/-- A text is decoded alike wherever it stands. -/
theorem decodeAt_text (hreg : ctx.registry = Registry.defaults) (shape : Shape α) :
    ∀ (site : Site) (s : String) (p q : Place),
      Compared Eq UpToPlaces (ctx.decodeAt shape site (.string s p))
        (ctx.decodeAt shape site (.string s q)) := by
  induction shape using Shape.induction with
  | leaf kind nullable =>
    intro site s p q
    cases hf : (Shape.leaf (α := α) kind nullable).foreign with
    | true =>
      rw [decodeAt_foreign hreg hf, decodeAt_foreign hreg hf]
      exact .fail rfl
    | false =>
      rw [decodeAt_leaf hreg hf, decodeAt_leaf hreg hf, guardNull_present rfl,
        guardNull_present rfl]
      exact decodeLeaf_text _ s p q kind
  | collection kind element nullable ih =>
    intro site s p q
    rw [decodeAt_collection hreg, decodeAt_collection hreg, guardNull_present rfl,
      guardNull_present rfl]
    cases he : element.foreign with
    | true =>
      rw [decodeCollection_foreign hreg kind he, decodeCollection_foreign hreg kind he]
      exact .fail rfl
    | false =>
      rw [decodeCollection_builtin hreg kind he, decodeCollection_builtin hreg kind he]
      simp only [elements?]
      have hparts : List.Forall₂ (fun n n' => ∀ site,
          Compared Eq UpToPlaces (ctx.decodeAt element site n) (ctx.decodeAt element site n'))
          ((Text.pieces ',' s.toList).map fun piece =>
            Node.string (String.ofList (Text.trim piece)) p)
          ((Text.pieces ',' s.toList).map fun piece =>
            Node.string (String.ofList (Text.trim piece)) q) := by
        rw [List.forall₂_map_left_iff, List.forall₂_map_right_iff]
        exact List.forall₂_same.mpr fun piece _ site => ih site _ p q
      exact ((compared_elements hparts site).wrap fun fs gs h =>
        Failure.upToPlaces_elements h _ _ _).map fun _ _ => congrArg kind.collect
  | map value nullable _ =>
    intro site s p q
    rw [decodeAt_map hreg, decodeAt_map hreg]
    exact .fail rfl
  | record name fields constructor? nullable _ =>
    intro site s p q
    rw [decodeAt_record hreg, decodeAt_record hreg]
    exact .fail rfl

/-- What a text with commas offers to a collection. -/
theorem elements?_joined (ts : NonEmpty PaddedText) (place : Place) :
    ctx.elements? (.string (PaddedText.joined ts) place) =
      some (PaddedText.nodes (fun _ => place) ts) := by
  rw [elements?, PaddedText.pieces_joined, List.map_map, PaddedText.nodes]
  refine congrArg some (List.ext_getElem (by simp) fun i _ _ => ?_)
  rw [List.getElem_map, List.getElem_mapIdx, Function.comp_apply, PaddedText.trim_written,
    Text.trimmed]

theorem elements?_nodes (hpre : ctx.preprocessors = []) (places : Nat → Place)
    (ts : NonEmpty PaddedText) (place : Place) :
    ctx.elements? (.array (PaddedText.nodes places ts) place) =
      some (PaddedText.nodes places ts) := by
  rw [elements?, funext (preprocess_eq_self hpre), List.map_id']

/-- The parts of a text and an array of them are decoded alike one by one. -/
theorem compared_nodes (hreg : ctx.registry = Registry.defaults) (element : Shape α) (site : Site)
    (ts : NonEmpty PaddedText) (places places' : Nat → Place) :
    Compared Eq UpToPlaces
      (Outcome.sequence ((PaddedText.nodes places ts).mapIdx fun i n =>
        ctx.decodeAt element (i :: site) n))
      (Outcome.sequence ((PaddedText.nodes places' ts).mapIdx fun i n =>
        ctx.decodeAt element (i :: site) n)) := by
  refine compared_elements (forall₂_mapIdx (forall₂_self ts.toList) ?_) site
  rintro i t _ ⟨rfl, -⟩ site
  exact decodeAt_text hreg element site _ _ _

/-- **A list may be written as one text.** Texts without commas, each with any blanks around
it, are joined by commas. Decoding the whole as a list or a set and decoding an array of the
trimmed texts, without preprocessors, give the same value; or both fail because no decoder
knows the elements; or both fail with the failures of the elements, gathered under the path
of the collection, and these are the same one by one but for the places that they name. -/
theorem decodeAt_separated (hreg : ctx.registry = Registry.defaults)
    (hpre : ctx.preprocessors = []) (kind : Collection) (element : Shape α) (nullable : Bool)
    (site : Site) (texts : NonEmpty PaddedText) (place place' : Place) (places : Nat → Place) :
    (∃ value,
      ctx.decodeAt (.collection kind element nullable) site
          (.string (PaddedText.joined texts) place) = .ok value ∧
        ctx.decodeAt (.collection kind element nullable) site
          (.array (PaddedText.nodes places texts) place') = .ok value) ∨
      (ctx.decodeAt (.collection kind element nullable) site
          (.string (PaddedText.joined texts) place) = .fail (.noDecoder element.text) ∧
        ctx.decodeAt (.collection kind element nullable) site
          (.array (PaddedText.nodes places texts) place') = .fail (.noDecoder element.text)) ∨
      ∃ children children' : Failures,
        ctx.decodeAt (.collection kind element nullable) site
            (.string (PaddedText.joined texts) place) =
          .fail (.elements kind.name place.path children) ∧
        ctx.decodeAt (.collection kind element nullable) site
            (.array (PaddedText.nodes places texts) place') =
          .fail (.elements kind.name place'.path children') ∧
        children.toList.map Failure.unplaced = children'.toList.map Failure.unplaced := by
  rw [decodeAt_collection hreg, decodeAt_collection hreg, guardNull_present rfl,
    guardNull_present rfl]
  cases he : element.foreign with
  | true =>
    rw [decodeCollection_foreign hreg kind he, decodeCollection_foreign hreg kind he]
    exact Or.inr (Or.inl ⟨rfl, rfl⟩)
  | false =>
    rw [decodeCollection_builtin hreg kind he, decodeCollection_builtin hreg kind he,
      elements?_joined, elements?_nodes hpre]
    dsimp only
    rcases (compared_nodes hreg element site texts (fun _ => place) places).results_or_failures with
      ⟨values, _, ho, ho', rfl⟩ | ⟨children, children', ho, ho', hsame⟩
    · rw [ho, ho']
      exact Or.inl ⟨kind.collect values, rfl, rfl⟩
    · rw [ho, ho']
      exact Or.inr (Or.inr ⟨children, children', rfl, rfl, hsame⟩)

/-- A number between blanks, and two texts that are none. -/
def portTexts : NonEmpty PaddedText :=
  ⟨⟨" ", "80", "\t", List.all_eq_true.mp rfl, List.all_eq_true.mp rfl, by decide⟩,
    [⟨"", "high", "", List.all_eq_true.mp rfl, List.all_eq_true.mp rfl, by decide⟩,
      ⟨"", "low port", " ", List.all_eq_true.mp rfl, List.all_eq_true.mp rfl, by decide⟩]⟩

/-- Ports at which the second and the third are refused in the array, are refused in the text,
too, which stands on the third line. -/
theorem decodeAt_portTexts :
    (ofRegistry (α := Unit) .defaults).registry = .defaults ∧
      (ofRegistry (α := Unit) .defaults).preprocessors = [] ∧
      PaddedText.joined portTexts = " 80\t,high,low port " ∧
      ∃ children : Failures,
        (ofRegistry (α := Unit) .defaults).decodeAt (.collection .list (.leaf .long false) false) []
            (.string (PaddedText.joined portTexts) ⟨.at 2 7 "app.yml", "<root>.ports"⟩) =
          .fail (.elements "List" "<root>.ports" children) ∧
        children.toList.map Failure.unplaced =
          [.badValue "Long" "high" "" .unknown, .badValue "Long" "low port" "" .unknown] := by
  have hreg : (ofRegistry (α := Unit) .defaults).registry = .defaults := rfl
  have hpre : (ofRegistry (α := Unit) .defaults).preprocessors = [] := rfl
  have harray : (ofRegistry (α := Unit) .defaults).decodeAt
      (.collection .list (.leaf .long false) false) []
      (.array (PaddedText.nodes (fun i => ⟨.unknown, elementPath "<root>.ports" i⟩) portTexts)
        ⟨.unknown, "<root>.ports"⟩) =
      .fail (.elements "List" "<root>.ports"
        ⟨.badValue "Long" "high" "<root>.ports[1]" .unknown,
          [.badValue "Long" "low port" "<root>.ports[2]" .unknown]⟩) := rfl
  refine ⟨hreg, hpre, by decide, ?_⟩
  rcases decodeAt_separated hreg hpre .list (.leaf .long false) false [] portTexts
    ⟨.at 2 7 "app.yml", "<root>.ports"⟩ ⟨.unknown, "<root>.ports"⟩
    (fun i => ⟨.unknown, elementPath "<root>.ports" i⟩) with
    ⟨value, -, h⟩ | ⟨-, h⟩ | ⟨children, children', hfail, h, hsame⟩
  · rw [harray] at h
    cases h
  · rw [harray] at h
    cases h
  · rw [harray] at h
    cases h
    exact ⟨children, hfail, hsame.trans rfl⟩

end Context
end TypedConfig
