/-
# Blanking keeps the layout of a text

What is left of a text when its comments are blanked out falls into segments as well:
the code and the strings that were there, and in the place of a comment its spaces and
line breaks, each of them code (`Lexing.uncommented`). No new comment begins, as what
follows a slash that was kept is still what followed it, or a space. So nothing is left
to blank out, and a second time changes nothing (`blankComments_blanked`).

Character by character, what is left is the text, with spaces in the place of some that
are no line breaks (`Lexing.forall₂_blanked`); so all lines and columns stay the same.

Key definitions: `Segment.uncommented`, `KeptOrBlank`.
Key theorems: `Lexing.uncommented`, `Lexing.forall₂_blanked`, `blankComments_blanked`,
`blankComments_keeps_layout`.
-/
import Mathlib.Data.List.Forall2
import TypedConfig.Json.Document
import TypedConfig.Proofs.Json.Comments

namespace TypedConfig
namespace Json

variable {segment : Segment} {segments : List Segment} {text rest rest' : List Char}

theorem blank_eq (c : Char) : blank c = '\n' ∨ blank c = ' ' := by
  unfold blank
  split
  · exact Or.inl rfl
  · exact Or.inr rfl

/-! ### The segments of what is left -/

namespace Segment

theorem blanked_of_comment (h : segment.isComment = true) :
    segment.blanked = segment.spelling.map blank := if_pos h

theorem blanked_of_not_comment (h : segment.isComment = false) :
    segment.blanked = segment.spelling := if_neg (Bool.eq_false_iff.mp h)

/-- The segments that stand in the place of the segment when comments are blanked out. -/
def uncommented (segment : Segment) : List Segment :=
  if segment.isComment then segment.blanked.map .code else [segment]

theorem uncommented_of_comment (h : segment.isComment = true) :
    segment.uncommented = (segment.spelling.map blank).map .code := by
  rw [uncommented, if_pos h, blanked_of_comment h]

theorem uncommented_of_not_comment (h : segment.isComment = false) :
    segment.uncommented = [segment] := if_neg (Bool.eq_false_iff.mp h)

/-- No comment is left. -/
theorem isComment_of_mem_uncommented {part : Segment} (h : part ∈ segment.uncommented) :
    part.isComment = false := by
  cases hc : segment.isComment with
  | true =>
    rw [uncommented_of_comment hc] at h
    obtain ⟨c, -, rfl⟩ := List.mem_map.mp h
    rfl
  | false =>
    rw [uncommented_of_not_comment hc, List.mem_singleton] at h
    rw [h, hc]

/-- A segment that is kept fits in front of what is left of the rest. -/
theorem Fits.of_kept (h : segment.Fits rest) (hkept : segment.isComment = false)
    (hnil : rest = [] → rest' = []) (hhead : rest'.head? = rest.head? ∨ rest'.head? = some ' ') :
    segment.Fits rest' := by
  cases segment with
  | code c =>
    obtain ⟨hquote, hslash⟩ := h
    refine ⟨hquote, fun hc => ?_⟩
    rcases hhead with hhead | hhead
    · rw [hhead]
      exact hslash hc
    · rw [hhead]
      decide
  | string body closed => exact ⟨h.1, fun hopen => hnil (h.2 hopen)⟩
  | line body => cases hkept
  | block body closed => cases hkept

end Segment

open Segment (uncommented_of_comment uncommented_of_not_comment blanked_of_comment
  blanked_of_not_comment)

namespace Lexing

theorem text_eq : ∀ {segments : List Segment} {text : List Char}, Lexing segments text →
    text = segments.flatMap Segment.spelling
  | [], _, h => h
  | segment :: segments, _, ⟨rest, htext, _, h⟩ => by rw [htext, List.flatMap_cons, ← h.text_eq]

/-- What is left begins with what the text begins with, or with the space of a comment. -/
theorem head?_blanked (h : Lexing segments text) :
    (segments.flatMap Segment.blanked).head? = text.head? ∨
      (segments.flatMap Segment.blanked).head? = some ' ' := by
  cases segments with
  | nil => exact Or.inl (congrArg List.head? h.symm)
  | cons segment segments =>
    obtain ⟨rest, rfl, -⟩ := h
    rw [List.flatMap_cons]
    cases hc : segment.isComment with
    | true =>
      rw [blanked_of_comment hc]
      cases segment with
      | line body => exact Or.inr rfl
      | block body closed => exact Or.inr rfl
      | code c => cases hc
      | string body closed => cases hc
    | false =>
      rw [blanked_of_not_comment hc]
      obtain ⟨c, cs, hcs⟩ := List.exists_cons_of_ne_nil segment.spelling_ne_nil
      exact Or.inl (by rw [hcs]; rfl)

/-- Spaces and line breaks are code. -/
theorem code_append (h : Lexing segments rest) : ∀ {cs : List Char},
    (∀ c ∈ cs, c = '\n' ∨ c = ' ') → Lexing (cs.map .code ++ segments) (cs ++ rest)
  | [], _ => h
  | c :: cs, hcs => by
    have hc := hcs c List.mem_cons_self
    have ih := h.code_append fun d hd => hcs d (List.mem_cons_of_mem c hd)
    refine ⟨cs ++ rest, rfl, ⟨?_, ?_⟩, ih⟩
    · rcases hc with rfl | rfl <;> decide
    · rcases hc with rfl | rfl <;> exact fun he => absurd he (by decide)

/-- What is left of a text falls into what is left of its segments. -/
theorem uncommented : ∀ {segments : List Segment} {text : List Char}, Lexing segments text →
    Lexing (segments.flatMap Segment.uncommented) (segments.flatMap Segment.blanked)
  | [], _, _ => rfl
  | segment :: segments, _, ⟨rest, _, hfits, h⟩ => by
    have ih := h.uncommented
    rw [List.flatMap_cons, List.flatMap_cons]
    cases hc : segment.isComment with
    | true =>
      rw [uncommented_of_comment hc, blanked_of_comment hc]
      refine ih.code_append fun c hm => ?_
      obtain ⟨d, -, rfl⟩ := List.mem_map.mp hm
      exact blank_eq d
    | false =>
      rw [uncommented_of_not_comment hc, blanked_of_not_comment hc]
      have hnil : rest = [] → segments.flatMap Segment.blanked = [] := by
        rintro rfl
        rw [h.eq_nil]
        rfl
      exact ⟨_, rfl, hfits.of_kept hc hnil h.head?_blanked, ih⟩

end Lexing

/-! ### Character by character -/

/-- The second character stands where the first one did: it is the same, or a space that is put
in its place if it is no line break. -/
def KeptOrBlank (c d : Char) : Prop := d = c ∨ (d = ' ' ∧ c ≠ '\n')

theorem keptOrBlank_blank (c : Char) : KeptOrBlank c (blank c) := by
  unfold blank
  split
  · rename_i hc
    exact Or.inl hc.symm
  · rename_i hc
    exact Or.inr ⟨rfl, hc⟩

/-- Line breaks are where they were. -/
theorem KeptOrBlank.break_iff {c d : Char} (h : KeptOrBlank c d) : d = '\n' ↔ c = '\n' := by
  rcases h with rfl | ⟨rfl, hc⟩
  · rfl
  · exact ⟨fun h => absurd h (by decide), fun h => absurd h hc⟩

theorem Segment.forall₂_blanked (segment : Segment) :
    List.Forall₂ KeptOrBlank segment.spelling segment.blanked := by
  cases hc : segment.isComment with
  | true =>
    rw [blanked_of_comment hc, List.forall₂_map_right_iff, List.forall₂_same]
    exact fun c _ => keptOrBlank_blank c
  | false =>
    rw [blanked_of_not_comment hc, List.forall₂_same]
    exact fun c _ => Or.inl rfl

theorem Lexing.forall₂_blanked : ∀ {segments : List Segment} {text : List Char},
    Lexing segments text → List.Forall₂ KeptOrBlank text (segments.flatMap Segment.blanked)
  | [], _, h => by
    rw [h]
    exact .nil
  | segment :: segments, _, ⟨rest, htext, _, h⟩ => by
    rw [htext, List.flatMap_cons]
    exact List.rel_append segment.forall₂_blanked h.forall₂_blanked

variable {cs ds : List Char}

theorem getElem?_break (h : List.Forall₂ KeptOrBlank cs ds) :
    ∀ i : Nat, ds[i]? = some '\n' ↔ cs[i]? = some '\n' := by
  induction h with
  | nil => simp
  | cons hc h ih =>
    intro i
    cases i with
    | zero => simpa using hc.break_iff
    | succ i => simpa using ih i

theorem lineAfter_blanked (h : List.Forall₂ KeptOrBlank cs ds) (line : Nat) :
    lineAfter line ds = lineAfter line cs := by
  induction h generalizing line with
  | nil => rfl
  | @cons c d cs ds hc h ih =>
    have hline : nextLine line d = nextLine line c := by simp only [nextLine, hc.break_iff]
    calc lineAfter line (d :: ds) = lineAfter (nextLine line d) ds := rfl
      _ = lineAfter (nextLine line c) cs := by rw [hline, ih]

theorem columnAfter_blanked (h : List.Forall₂ KeptOrBlank cs ds) (column : Nat) :
    columnAfter column ds = columnAfter column cs := by
  induction h generalizing column with
  | nil => rfl
  | @cons c d cs ds hc h ih =>
    have hcolumn : nextColumn column d = nextColumn column c := by
      simp only [nextColumn, hc.break_iff]
    calc columnAfter column (d :: ds) = columnAfter (nextColumn column d) ds := rfl
      _ = columnAfter (nextColumn column c) cs := by rw [hcolumn, ih]

/-! ### Whole texts -/

/-- Blanking succeeds with what is left of the segments. -/
theorem exists_lexing_of_blankComments {text blanked : String}
    (h : blankComments text = .ok blanked) : ∃ segments, Lexing segments text.toList ∧
      blanked.toList = segments.flatMap Segment.blanked := by
  obtain ⟨segments, hlexing, -⟩ := existsUnique_lexing text.toList
  refine ⟨segments, hlexing, ?_⟩
  rcases hlexing.closed_or_open with hclosed | ⟨front, body, rfl⟩
  · rw [blankComments, hlexing.blankFrom_eq_ok hclosed] at h
    cases h
    exact String.toList_ofList
  · rw [blankComments, hlexing.blankFrom_eq_error] at h
    cases h

/-- Segments none of which is a comment are all kept. -/
theorem blankComments_of_no_comment {text : String} (h : Lexing segments text.toList)
    (hkept : ∀ segment ∈ segments, segment.isComment = false) : blankComments text = .ok text := by
  have hclosed : ∀ body, Segment.block body false ∉ segments := fun body hm => by
    cases hkept _ hm
  have hblanked : segments.flatMap Segment.blanked = text.toList := by
    rw [h.text_eq, List.flatMap_def, List.flatMap_def]
    exact congrArg List.flatten
      (List.map_congr_left fun s hs => blanked_of_not_comment (hkept s hs))
  rw [blankComments, h.blankFrom_eq_ok hclosed, hblanked]
  exact congrArg Except.ok String.ofList_toList

/-- A text that has been blanked out has no comments. -/
theorem blankComments_blanked {text blanked : String} (h : blankComments text = .ok blanked) :
    blankComments blanked = .ok blanked := by
  obtain ⟨segments, hlexing, hblanked⟩ := exists_lexing_of_blankComments h
  have hkept : Lexing (segments.flatMap Segment.uncommented) blanked.toList :=
    hblanked ▸ hlexing.uncommented
  refine blankComments_of_no_comment hkept fun part hm => ?_
  obtain ⟨segment, -, hm⟩ := List.mem_flatMap.mp hm
  exact Segment.isComment_of_mem_uncommented hm

/-- Without a slash there are no comments. -/
theorem blankComments_of_no_slash {text : String} (h : '/' ∉ text.toList) :
    blankComments text = .ok text := by
  obtain ⟨segments, hlexing, -⟩ := existsUnique_lexing text.toList
  refine blankComments_of_no_comment hlexing fun segment hm => ?_
  have hsub : ∀ c ∈ segment.spelling, c ∈ text.toList := fun c hc => by
    rw [hlexing.text_eq]
    exact List.mem_flatMap.mpr ⟨segment, hm, hc⟩
  cases segment with
  | code c => rfl
  | string body closed => rfl
  | line body => exact absurd (hsub '/' List.mem_cons_self) h
  | block body closed => exact absurd (hsub '/' List.mem_cons_self) h

/-- **Blanking keeps the layout.** If the comments of a text can be blanked out, what is left
has as many characters. Each is the one that was there or a space in the place of one that was
no line break; so line breaks are where they were, and in front of every character are as many
lines and columns. To blank out what is left changes nothing, and it is loaded as the text is.
A text without a slash is left as it is. -/
theorem blankComments_keeps_layout (text : String) :
    (∀ blanked, blankComments text = .ok blanked →
      blanked.length = text.length ∧
      List.Forall₂ KeptOrBlank text.toList blanked.toList ∧
      (∀ i : Nat, blanked.toList[i]? = some '\n' ↔ text.toList[i]? = some '\n') ∧
      (∀ i, lineAfter 0 (blanked.toList.take i) = lineAfter 0 (text.toList.take i) ∧
        columnAfter 0 (blanked.toList.take i) = columnAfter 0 (text.toList.take i)) ∧
      blankComments blanked = .ok blanked ∧
      ∀ source, documents.load blanked source = documents.load text source) ∧
    ('/' ∉ text.toList → blankComments text = .ok text) := by
  refine ⟨fun blanked h => ?_, blankComments_of_no_slash⟩
  obtain ⟨segments, hlexing, hblanked⟩ := exists_lexing_of_blankComments h
  have hkept : List.Forall₂ KeptOrBlank text.toList blanked.toList :=
    hblanked ▸ hlexing.forall₂_blanked
  have hlength : blanked.length = text.length := by
    rw [← String.length_toList, ← String.length_toList]
    exact hkept.length_eq.symm
  have hagain := blankComments_blanked h
  refine ⟨hlength, hkept, getElem?_break hkept, fun i => ?_, hagain, fun source => ?_⟩
  · have htake := List.forall₂_take i hkept
    exact ⟨lineAfter_blanked htake 0, columnAfter_blanked htake 0⟩
  · change parse blanked source = parse text source
    rw [parse, parse, h, hagain]

/-- A comment begins in a string and another one in a line comment, neither of which counts, and
a slash stands in front of a comment; the block comment holds a carriage return. -/
theorem blankComments_slashes :
    blankComments "[\"/*\",/ // /*\n/*\r\n*/1]" = .ok "[\"/*\",/      \n   \n  1]" ∧
      blankComments "[\"/*\",/      \n   \n  1]" = .ok "[\"/*\",/      \n   \n  1]" ∧
      documents.load "[\"/*\",/      \n   \n  1]" "s" =
        documents.load "[\"/*\",/ // /*\n/*\r\n*/1]" "s" ∧
      '/' ∉ "[\"*\", 1]".toList ∧ blankComments "[\"*\", 1]" = .ok "[\"*\", 1]" := by
  have h : blankComments "[\"/*\",/ // /*\n/*\r\n*/1]" = .ok "[\"/*\",/      \n   \n  1]" := by rfl
  have hslash : '/' ∉ "[\"*\", 1]".toList := by decide
  obtain ⟨-, -, -, -, hagain, hload⟩ := (blankComments_keeps_layout _).1 _ h
  exact ⟨h, hagain, hload "s", hslash, (blankComments_keeps_layout _).2 hslash⟩

end Json
end TypedConfig
