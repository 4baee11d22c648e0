/-
# JSON is read faithfully

A text that the strict check accepts is read as the YAML document that it is as well. It
has no comments (`blankComments_document`), and in all that the scanner and the grammar
find in it the tree is the value that the text says (`load_accepted`). What is left out
is said by `Syntax.Readable`: three things that are JSON and are read otherwise.

Key definitions: `Clean`.
Key theorems: `blankComments_document`, `exists_parse`, `load_accepted`.
-/
import TypedConfig.Json.Document
import TypedConfig.Proofs.Blank
import TypedConfig.Proofs.Json.Accepted
import TypedConfig.Proofs.Json.Comments
import TypedConfig.Proofs.Json.Events

namespace TypedConfig

namespace Json

open Yaml

/-! ### A document has no comments -/

/-- No comment is found in the text. -/
def Clean (lexical : Lexical) (cs : List Char) : Prop :=
  ∀ line column, blankFrom lexical line column cs = .ok cs

variable {cs : List Char}

/-- A character that begins no comment is kept. -/
theorem Clean.cons {lexical : Lexical} {c : Char}
    (hc : lexical = .code ∧ c ≠ '/' ∨ lexical = .string ∨ lexical = .escape)
    (h : Clean (lexical.after c) cs) : Clean lexical (c :: cs) := by
  intro line column
  have hkeep : lexical = .code ∧ (c = '/' → cs.head? ≠ some '/' ∧ cs.head? ≠ some '*') ∨
      lexical = .string ∨ lexical = .escape := hc.imp_left fun ⟨hcode, hslash⟩ =>
    ⟨hcode, fun h => absurd h hslash⟩
  rw [blankFrom_keep hkeep, h]
  rfl

/-- Characters of code that are neither quotes nor slashes are kept. -/
theorem Clean.append (h : Clean .code cs) : ∀ {ds : List Char}, (∀ d ∈ ds, d ≠ '/' ∧ d ≠ '"') →
    Clean .code (ds ++ cs)
  | [], _ => h
  | d :: ds, hds => by
    obtain ⟨hslash, hquote⟩ := hds d List.mem_cons_self
    refine .cons (Or.inl ⟨rfl, hslash⟩) ?_
    rw [Lexical.after, if_neg hquote]
    exact h.append fun e he => hds e (List.mem_cons_of_mem _ he)

theorem clean_escape {c : Char} (h : Clean .string cs) : Clean .string ('\\' :: c :: cs) :=
  .cons (Or.inr (Or.inl rfl)) (.cons (Or.inr (Or.inr rfl)) h)

theorem clean_hex (h : Clean .string cs) : ∀ {ds : List Char},
    (∀ d ∈ ds, Text.isHexDigit d = true) → Clean .string (ds ++ cs)
  | [], _ => h
  | d :: ds, hds => by
    have hd := hds d List.mem_cons_self
    have hbackslash : d ≠ '\\' := by
      rintro rfl
      exact absurd hd (by decide)
    have hquote : d ≠ '"' := by
      rintro rfl
      exact absurd hd (by decide)
    refine .cons (Or.inr (Or.inl rfl)) ?_
    rw [Lexical.after, if_neg hbackslash, if_neg hquote]
    exact clean_hex h fun e he => hds e (List.mem_cons_of_mem _ he)

theorem clean_unit (unit : CodeUnit) (h : Clean .string cs) :
    Clean .string ('\\' :: 'u' :: (unit.digits ++ cs)) :=
  clean_escape (clean_hex h (List.all_eq_true.mp unit.hex))

theorem clean_body (h : Clean .string cs) : ∀ pieces : List StringPiece,
    Clean .string (bodySpelling pieces ++ cs)
  | [] => h
  | piece :: pieces => by
    have ih := clean_body h pieces
    rw [bodySpelling_cons, List.append_assoc]
    cases piece with
    | plain c hc =>
      refine .cons (Or.inr (Or.inl rfl)) ?_
      rw [Lexical.after, if_neg hc.2.1, if_neg hc.1]
      exact ih
    | letter escape hc => exact clean_escape ih
    | code unit hc => exact clean_unit unit ih
    | surrogates first second hf hs =>
      rw [StringPiece.spelling, List.cons_append, List.cons_append, List.cons_append,
        List.cons_append, List.append_assoc]
      exact clean_unit first (clean_unit second ih)

theorem clean_string (pieces : List StringPiece) (h : Clean .code cs) :
    Clean .code (stringSpelling pieces ++ cs) := by
  rw [stringSpelling, List.cons_append, List.cons_append, List.append_assoc,
    List.singleton_append]
  have hend : Clean .string ('"' :: cs) := .cons (Or.inr (Or.inl rfl)) h
  exact .cons (Or.inl ⟨rfl, by decide⟩) (clean_body hend pieces)

theorem clean_layout (layout : Layout) (h : Clean .code cs) : Clean .code (layout.text ++ cs) := by
  refine h.append fun d hd => ?_
  rcases layout.blank d hd with rfl | rfl | rfl | rfl <;> decide

theorem clean_mark {c : Char} (hc : c ≠ '/' ∧ c ≠ '"') (h : Clean .code cs) :
    Clean .code (c :: cs) :=
  have hmem : ∀ d ∈ [c], d ≠ '/' ∧ d ≠ '"' := by simpa using hc
  h.append hmem

mutual

theorem clean_value : ∀ (value : Syntax) {cs : List Char}, Clean .code cs →
    Clean .code (value.spelling ++ cs)
  | .null, _, h => h.append (forall_mem_of_all (by decide))
  | .boolean true, _, h => h.append (forall_mem_of_all (by decide))
  | .boolean false, _, h => h.append (forall_mem_of_all (by decide))
  | .number numeral, _, h => h.append fun d hd => by
    have hchar := numeral.isNumberChar_spelling d hd
    constructor <;> rintro rfl <;> exact absurd hchar (by decide)
  | .string pieces, _, h => clean_string pieces h
  | .array inside elements, cs, h => by
    have hs := clean_elements true elements (clean_mark (c := ']') (by decide) h)
    simp only [Syntax.spelling, List.cons_append, List.append_assoc, List.nil_append]
    exact clean_mark (by decide) (clean_layout inside hs)
  | .object inside members, cs, h => by
    have hs := clean_members true members (clean_mark (c := '\x7d') (by decide) h)
    simp only [Syntax.spelling, List.cons_append, List.append_assoc, List.nil_append]
    exact clean_mark (by decide) (clean_layout inside hs)

theorem clean_elements (first : Bool) : ∀ (elements : List (Padded Syntax)) {cs : List Char},
    Clean .code cs → Clean .code (Syntax.elementsSpelling first elements ++ cs)
  | [], _, h => h
  | ⟨before, element, after⟩ :: elements, cs, h => by
    have hs := clean_layout before (clean_value element (clean_layout after
      (clean_elements false elements h)))
    simp only [Syntax.elementsSpelling, List.append_assoc]
    cases first
    · exact clean_mark (by decide) hs
    · exact hs

theorem clean_members (first : Bool) : ∀ (members : List (Padded (Member Syntax)))
    {cs : List Char}, Clean .code cs → Clean .code (Syntax.membersSpelling first members ++ cs)
  | [], _, h => h
  | ⟨before, ⟨key, beforeColon, afterColon, value⟩, after⟩ :: members, cs, h => by
    have hs := clean_layout before (clean_string key (clean_layout beforeColon
      (clean_mark (c := ':') (by decide) (clean_layout afterColon (clean_value value
        (clean_layout after (clean_members false members h)))))))
    simp only [Syntax.membersSpelling, List.append_assoc, List.cons_append]
    cases first
    · exact clean_mark (by decide) hs
    · exact hs

end

theorem blankComments_document (document : Document) :
    blankComments document.text = .ok document.text := by
  have hnil : Clean .code [] := fun _ _ => rfl
  have hclean := clean_layout document.before (clean_value document.item
    (clean_layout document.after hnil))
  rw [List.append_nil] at hclean
  rw [blankComments, Document.text, String.toList_ofList, hclean]
  rfl

/-! ### A document is not blank -/

theorem isBlank_word {c : Char} (hc : isWordChar c = true) : Text.isBlank c = false := by
  simp only [isWordChar, Text.isDigit, Bool.or_eq_true, Bool.and_eq_true, decide_eq_true_eq,
    Char.le_def, UInt32.le_iff_toNat_le, beq_iff_eq] at hc
  obtain (((h | h) | h) | rfl) | rfl := hc
  · exact Text.isBlank_of_visible (Nat.le_trans (by decide) h.1) (Nat.le_trans h.2 (by decide))
  · exact Text.isBlank_of_visible (Nat.le_trans (by decide) h.1) (Nat.le_trans h.2 (by decide))
  · exact Text.isBlank_of_visible (Nat.le_trans (by decide) h.1) (Nat.le_trans h.2 (by decide))
  · decide
  · decide

theorem trim_document (document : Document) :
    (Text.trim document.text.toList).isEmpty = false := by
  obtain ⟨c, cs, hs, hbare, hother⟩ := document.item.exists_start
  have hmem : c ∈ document.text.toList := by
    rw [Document.text, String.toList_ofList, hs]
    exact List.mem_append_right _ List.mem_cons_self
  have hblank : Text.isBlank c = false := by
    cases hb : document.item.isBare with
    | true => exact isBlank_word (hbare hb)
    | false =>
      have hfacts : ∀ c ∈ ['"', '[', '\x7b'], Text.isBlank c = false :=
        forall_mem_of_all (by decide)
      exact hfacts c (hother hb)
  exact List.isEmpty_eq_false_iff_exists_mem.mpr ⟨c, Text.mem_trim hblank hmem⟩

/-! ### Reading a document -/

/-- A document is parsed as what it says. -/
theorem exists_parse {document : Document} (source : String)
    (hdepth : document.item.depth ≤ Scan.flowLimit)
    (hr : ∀ part ∈ document.item.parts, part.Readable ∧ part.DistinctKeys) :
    ∃ root, Yaml.parse document.text source = .ok root ∧ document.item.Denotes root := by
  obtain ⟨tokens, hstream, htokens⟩ := ofText_document document (fun part hp => (hr part hp).1)
    hdepth
  obtain ⟨tree, hexpress, hevents⟩ := firstDocument_value htokens hr
  obtain ⟨hviolations, hdenotes⟩ := hexpress source rootPath
  have hmeaning : tree.denote source rootPath = .ok (tree.node source rootPath) := by
    rw [EventTree.denote_eq, hviolations]
    rfl
  refine ⟨tree.node source rootPath, ?_, hdenotes⟩
  rw [Yaml.parse, hstream, hevents]
  exact (buildTree_documentEvents source tree).trans hmeaning

/-- A document is loaded as what it says. -/
theorem exists_load {document : Document} (source : String) (haccepted : check document.text = none)
    (hdepth : document.item.depth ≤ Read.depthLimit)
    (hr : ∀ part ∈ document.item.parts, part.Readable ∧ part.DistinctKeys) :
    ∃ root, documents.load document.text source = .ok root ∧ document.item.Denotes root := by
  obtain ⟨root, hparse, hdenotes⟩ := exists_parse source (Nat.le_trans hdepth (by decide)) hr
  refine ⟨root, ?_, hdenotes⟩
  change parse document.text source = _
  rw [parse, blankComments_document]
  dsimp only
  rw [parseBare, trim_document, if_neg Bool.false_ne_true, haccepted]
  exact hparse

/-- **JSON is read faithfully.** A text that the strict check accepts is a document. Unless a
key stands twice in an object, or YAML reads a value otherwise than JSON, the text is loaded, and
the tree is what the document says. -/
theorem load_accepted {text : String} (source : String) (haccepted : check text = none) :
    (∃ document : Document, document.text = text ∧ document.item.depth ≤ Read.depthLimit) ∧
      ∀ document : Document, document.text = text → document.item.depth ≤ Read.depthLimit →
        (∀ part ∈ document.item.parts, part.Readable ∧ part.DistinctKeys) →
          ∃ root, documents.load text source = .ok root ∧ document.item.Denotes root := by
  refine ⟨exists_document haccepted, ?_⟩
  rintro document rfl hdepth hr
  exact exists_load source haccepted hdepth hr

/-- One space. -/
def space : Layout := ⟨[' '], by simp⟩

/-- No layout. -/
def noSpace : Layout := ⟨[], nofun⟩

/-- An object with a list and a text that spells a number. -/
def sample : Document :=
  ⟨space, .object space
    [⟨noSpace, ⟨[.plain 'a' (by decide)], noSpace, space,
        .array noSpace
          [⟨noSpace, .number ⟨true, ['1'], [], none, by decide, nofun, by decide⟩, noSpace⟩,
            ⟨space, .number ⟨false, ['2'], ['5'], none, by decide, nofun, by decide⟩, noSpace⟩]⟩,
        noSpace⟩,
      ⟨space, ⟨[.code ⟨"00e9".toList, by decide, by decide⟩ (by decide)], noSpace, noSpace,
        .string [.plain '7' (by decide), .letter ('n', '\n') (by decide)]⟩, space⟩], noSpace⟩

theorem load_sample :
    sample.text = " \x7b \"a\": [-1, 2.5], \"\\u00e9\":\"7\\n\" \x7d" ∧
      check sample.text = none ∧ sample.item.depth ≤ Read.depthLimit ∧
      (∀ part ∈ sample.item.parts, part.Readable ∧ part.DistinctKeys) ∧
      ∃ root, documents.load sample.text "s" = .ok root ∧ sample.item.Denotes root := by
  have haccepted : check sample.text = none := by decide +kernel
  have hdepth : sample.item.depth ≤ Read.depthLimit := by decide
  have hr : ∀ part ∈ sample.item.parts, part.Readable ∧ part.DistinctKeys := by
    decide +kernel
  exact ⟨by decide +kernel, haccepted, hdepth, hr,
    (load_accepted "s" haccepted).2 sample rfl hdepth hr⟩

end Json
end TypedConfig
