/-
# What is a comment and what is not

Read from its beginning, a text falls into characters of code, string literals and
comments in exactly one way (`existsUnique_lexing`): the first of the characters
left and the one behind it tell what begins, and that ends at the first place where
it can (`splitSegment_eq_iff`). A literal or a block comment without an end takes up
all that is left.

Blanking goes through the same segments. One segment is one step: whatever it is,
blanking is back in code behind it, with the line and the column that follow from
its spelling (`blankFrom_segment`). So code and strings are kept as they are, and of
a comment only the line breaks are; a block comment without an end is reported where
it begins (`blankComments_of_lexing`).

Key definitions: `StringBody`, `Segment`, `Segment.Fits`, `Lexing`.
Key theorems: `splitSegment_eq_iff`, `existsUnique_lexing`, `blankFrom_segment`,
`Lexing.blankFrom_eq_ok`, `Lexing.blankFrom_eq_error`, `blankComments_of_lexing`.
-/
import Mathlib.Data.List.Infix
import TypedConfig.Json.Comments

namespace TypedConfig
namespace Json

/-! ### Segments -/

/-- What stands in a string literal behind its first quote: characters other than quotes and
backslashes, and backslashes with any character after them. A literal that is not closed may
end with a backslash that has none. -/
inductive StringBody : Bool → List Char → Prop
  | nil {closed : Bool} : StringBody closed []
  | plain {closed : Bool} {c : Char} {body : List Char} (hquote : c ≠ '"') (hescape : c ≠ '\\')
      (h : StringBody closed body) : StringBody closed (c :: body)
  | escaped {closed : Bool} (c : Char) {body : List Char} (h : StringBody closed body) :
      StringBody closed ('\\' :: c :: body)
  | dangling : StringBody false ['\\']

/-- A stretch of text. Strings and block comments may lack their end. -/
inductive Segment where
  | code (c : Char)
  | string (body : List Char) (closed : Bool)
  | line (body : List Char)
  | block (body : List Char) (closed : Bool)

/-- The end of a string literal, if it has one. -/
def stringEnd (closed : Bool) : List Char := if closed then ['"'] else []

/-- The end of a block comment, if it has one. -/
def blockEnd (closed : Bool) : List Char := if closed then ['*', '/'] else []

/-- What a character of a comment is replaced by. -/
def blank (c : Char) : Char := if c = '\n' then '\n' else ' '

namespace Segment

/-- The characters of the segment. -/
def spelling : Segment → List Char
  | .code c => [c]
  | .string body closed => '"' :: (body ++ stringEnd closed)
  | .line body => '/' :: '/' :: body
  | .block body closed => '/' :: '*' :: (body ++ blockEnd closed)

/-- Whether the segment is a comment. -/
def isComment : Segment → Bool
  | .line _ | .block .. => true
  | _ => false

/-- What is left of the segment when comments are blanked out. -/
def blanked (segment : Segment) : List Char :=
  if segment.isComment then segment.spelling.map blank else segment.spelling

/-- Whether the segment can stand in front of the given text: a character of code is no quote
and begins no comment, a body does not hold the end, and if the end is missing, nothing comes
after it. A line comment ends in front of the line break. -/
def Fits : Segment → List Char → Prop
  | .code c, rest => c ≠ '"' ∧ (c = '/' → rest.head? ≠ some '/' ∧ rest.head? ≠ some '*')
  | .string body closed, rest => StringBody closed body ∧ (closed = false → rest = [])
  | .line body, rest => '\n' ∉ body ∧ (rest = [] ∨ rest.head? = some '\n')
  | .block body closed, rest => ¬['*', '/'] <:+: body ∧ (closed = false → rest = [])

theorem spelling_ne_nil (segment : Segment) : segment.spelling ≠ [] := by
  cases segment <;> simp [spelling]

end Segment

/-- The text falls into the segments, one after another. -/
def Lexing : List Segment → List Char → Prop
  | [], text => text = []
  | segment :: segments, text =>
    ∃ rest, text = segment.spelling ++ rest ∧ segment.Fits rest ∧ Lexing segments rest

variable {segment : Segment} {segments : List Segment} {body rest : List Char} {closed : Bool}

/-! ### Each text has one lexing -/

/-- A text has no end of a block comment in it exactly if its first character begins none and
there is none further on. -/
theorem not_infix_cons_iff {c : Char} :
    ¬['*', '/'] <:+: c :: body ↔
      (c = '*' → body.head? ≠ some '/') ∧ ¬['*', '/'] <:+: body := by
  have hprefix : ['*', '/'] <+: c :: body ↔ c = '*' ∧ body.head? = some '/' := by
    rw [List.cons_prefix_cons, eq_comm]
    cases body <;> simp [eq_comm]
  rw [List.infix_cons_iff, hprefix, not_or, not_and]

/-- The body of a string literal, whether it is closed, and what comes behind it. -/
def splitString : List Char → List Char × Bool × List Char
  | '"' :: cs => ([], true, cs)
  | '\\' :: c :: cs =>
    let (body, closed, rest) := splitString cs
    ('\\' :: c :: body, closed, rest)
  | c :: cs =>
    let (body, closed, rest) := splitString cs
    (c :: body, closed, rest)
  | [] => ([], false, [])

/-- The body of a block comment, whether it is closed, and what comes behind it. -/
def splitBlock : List Char → List Char × Bool × List Char
  | '*' :: '/' :: cs => ([], true, cs)
  | c :: cs =>
    let (body, closed, rest) := splitBlock cs
    (c :: body, closed, rest)
  | [] => ([], false, [])

/-- The segment that begins with the first of the characters, and what comes behind it. -/
def splitSegment : Char → List Char → Segment × List Char
  | '"', cs =>
    let (body, closed, rest) := splitString cs
    (.string body closed, rest)
  | '/', '/' :: cs => (.line (cs.takeWhile (· ≠ '\n')), cs.dropWhile (· ≠ '\n'))
  | '/', '*' :: cs =>
    let (body, closed, rest) := splitBlock cs
    (.block body closed, rest)
  | c, cs => (.code c, cs)

/-- A literal goes on up to the first quote that is not escaped, or to the end of the text. -/
theorem splitString_eq_iff {cs : List Char} : splitString cs = (body, closed, rest) ↔
    cs = body ++ stringEnd closed ++ rest ∧ (Segment.string body closed).Fits rest := by
  constructor
  · intro h
    fun_induction splitString cs generalizing body closed rest with
    | case1 cs =>
      cases h
      exact ⟨rfl, .nil, fun h => by cases h⟩
    | case2 c cs body' closed' rest' hsplit ih =>
      cases h
      obtain ⟨rfl, hbody, hrest⟩ := ih hsplit
      exact ⟨rfl, .escaped c hbody, hrest⟩
    | case3 c cs hquote hescape body' closed' rest' hsplit ih =>
      cases h
      -- a backslash gets here only as the last character
      by_cases hc : c = '\\'
      · have hnil : cs = [] := by
          cases cs with
          | nil => rfl
          | cons d ds => exact (hescape d ds hc rfl).elim
        subst hc hnil
        cases hsplit
        exact ⟨rfl, .dangling, fun _ => rfl⟩
      · obtain ⟨rfl, hbody, hrest⟩ := ih hsplit
        exact ⟨rfl, .plain hquote hc hbody, hrest⟩
    | case4 =>
      cases h
      exact ⟨rfl, .nil, fun _ => rfl⟩
  · rintro ⟨rfl, hbody, hrest⟩
    induction hbody with
    | @nil closed =>
      cases closed with
      | true => rfl
      | false =>
        rw [hrest rfl]
        rfl
    | plain hquote hescape hbody ih =>
      rw [List.cons_append, List.cons_append, splitString, ih hrest]
      · exact hquote
      · exact fun _ _ hc => absurd hc hescape
    | escaped c hbody ih =>
      rw [List.cons_append, List.cons_append, List.cons_append, List.cons_append, splitString,
        ih hrest]
    | dangling =>
      rw [hrest rfl]
      rfl

/-- A block comment goes on up to its first end, or to the end of the text. -/
theorem splitBlock_eq_iff {cs : List Char} : splitBlock cs = (body, closed, rest) ↔
    cs = body ++ blockEnd closed ++ rest ∧ (Segment.block body closed).Fits rest := by
  constructor
  · intro h
    fun_induction splitBlock cs generalizing body closed rest with
    | case1 cs =>
      cases h
      exact ⟨rfl, by simp, fun h => by cases h⟩
    | case2 c cs hend body' closed' rest' hsplit ih =>
      cases h
      obtain ⟨rfl, hbody, hrest⟩ := ih hsplit
      refine ⟨rfl, not_infix_cons_iff.mpr ⟨fun hc hb => ?_, hbody⟩, hrest⟩
      obtain ⟨body, rfl⟩ := List.head?_eq_some_iff.mp hb
      exact hend _ hc rfl
    | case3 =>
      cases h
      exact ⟨rfl, by simp, fun _ => rfl⟩
  · rintro ⟨rfl, hbody, hrest⟩
    induction body with
    | nil =>
      cases closed with
      | true => rfl
      | false =>
        rw [hrest rfl]
        rfl
    | cons c body ih =>
      obtain ⟨hend, hbody⟩ := not_infix_cons_iff.mp hbody
      rw [List.cons_append, List.cons_append, splitBlock, ih hbody]
      intro cs hc hcs
      have hhead : (body ++ blockEnd closed ++ rest).head? = some '/' := by rw [hcs]; rfl
      cases body with
      | nil =>
        cases closed with
        | true => cases hhead
        | false =>
          rw [hrest rfl] at hhead
          cases hhead
      | cons d body => exact hend hc hhead

/-- The body of a line comment and what comes behind it are parted by the first line break. -/
theorem line_fits_iff {cs : List Char} : (cs.takeWhile (· ≠ '\n'), cs.dropWhile (· ≠ '\n')) =
    (body, rest) ↔ cs = body ++ rest ∧ (Segment.line body).Fits rest := by
  constructor
  · intro h
    cases h
    refine ⟨List.takeWhile_append_dropWhile.symm, fun hm => ?_, ?_⟩
    · simpa using List.all_eq_true.mp List.all_takeWhile _ hm
    · cases hd : cs.dropWhile (· ≠ '\n') with
      | nil => exact Or.inl rfl
      | cons c rest =>
        have hc := List.head?_dropWhile_not (· ≠ '\n') cs
        rw [hd] at hc
        exact Or.inr (by simpa using hc)
  · rintro ⟨rfl, hbody, hrest⟩
    have hplain : ∀ c ∈ body, decide (c ≠ '\n') = true := by
      intro c hc
      exact decide_eq_true fun he => hbody (he ▸ hc)
    rw [List.takeWhile_append_of_pos hplain, List.dropWhile_append_of_pos hplain]
    rcases hrest with rfl | hrest
    · simp
    · obtain ⟨rest, rfl⟩ := List.head?_eq_some_iff.mp hrest
      simp

/-- The segment at the beginning of a text and what comes behind it are found by
`splitSegment`. -/
theorem splitSegment_eq_iff {c : Char} {cs : List Char} :
    splitSegment c cs = (segment, rest) ↔
      c :: cs = segment.spelling ++ rest ∧ segment.Fits rest := by
  constructor
  · intro h
    unfold splitSegment at h
    split at h
    · cases h
      obtain ⟨he, hfits⟩ := splitString_eq_iff.mp rfl
      exact ⟨congrArg ('"' :: ·) he, hfits⟩
    · cases h
      obtain ⟨he, hfits⟩ := line_fits_iff.mp rfl
      exact ⟨congrArg ('/' :: '/' :: ·) he, hfits⟩
    · cases h
      obtain ⟨he, hfits⟩ := splitBlock_eq_iff.mp rfl
      exact ⟨congrArg ('/' :: '*' :: ·) he, hfits⟩
    · rename_i hquote hline hblock
      cases h
      refine ⟨rfl, hquote, fun hc => ⟨fun hhead => ?_, fun hhead => ?_⟩⟩
      · obtain ⟨cs, rfl⟩ := List.head?_eq_some_iff.mp hhead
        exact hline _ hc rfl
      · obtain ⟨cs, rfl⟩ := List.head?_eq_some_iff.mp hhead
        exact hblock _ hc rfl
  · rintro ⟨hcs, hfits⟩
    cases segment with
    | code d =>
      obtain ⟨rfl, htail⟩ := List.cons.inj hcs
      obtain ⟨hquote, hslash⟩ := hfits
      have hrest : cs = rest := htail
      subst hrest
      rw [splitSegment]
      · exact hquote
      · exact fun _ hc he => (hslash hc).1 (congrArg List.head? he)
      · exact fun _ hc he => (hslash hc).2 (congrArg List.head? he)
    | string body closed =>
      obtain ⟨rfl, htail⟩ := List.cons.inj hcs
      rw [splitSegment, splitString_eq_iff.mpr ⟨htail, hfits⟩]
    | line body =>
      obtain ⟨rfl, htail⟩ := List.cons.inj hcs
      subst htail
      obtain ⟨hbody, hrest⟩ := Prod.mk.inj (line_fits_iff.mpr ⟨rfl, hfits⟩)
      exact congrArg₂ (fun b r => (Segment.line b, r)) hbody hrest
    | block body closed =>
      obtain ⟨rfl, htail⟩ := List.cons.inj hcs
      subst htail
      exact congrArg (fun p => (Segment.block p.1 p.2.1, p.2.2))
        (splitBlock_eq_iff.mpr ⟨rfl, hfits⟩)

theorem Lexing.eq_nil (h : Lexing segments []) : segments = [] := by
  cases segments with
  | nil => rfl
  | cons segment segments =>
    obtain ⟨rest, hnil, -⟩ := h
    exact absurd (List.append_eq_nil_iff.mp hnil.symm).1 segment.spelling_ne_nil

/-- **Every text has one lexing.** Its first segment is the one that is split off, and the
others are those of the rest, which is shorter. -/
theorem existsUnique_lexing : ∀ cs : List Char, ∃! segments, Lexing segments cs
  | [] => ⟨[], rfl, fun _ h => h.eq_nil⟩
  | c :: cs => by
    obtain ⟨⟨segment, rest⟩, hsplit⟩ : ∃ p, splitSegment c cs = p := ⟨_, rfl⟩
    obtain ⟨hcs, hfits⟩ := splitSegment_eq_iff.mp hsplit
    have hlen : rest.length < (c :: cs).length := by
      rw [hcs, List.length_append]
      exact Nat.lt_add_of_pos_left (List.length_pos_iff.mpr segment.spelling_ne_nil)
    obtain ⟨segments, hlexing, hunique⟩ := existsUnique_lexing rest
    refine ⟨segment :: segments, ⟨rest, hcs, hfits, hlexing⟩, fun others h => ?_⟩
    cases others with
    | nil => cases h
    | cons segment' segments' =>
      obtain ⟨rest', hcs', hfits', hlexing'⟩ := h
      have hsame := splitSegment_eq_iff.mpr ⟨hcs', hfits'⟩
      rw [hsplit, Prod.mk.injEq] at hsame
      obtain ⟨rfl, rfl⟩ := hsame
      rw [hunique segments' hlexing']
termination_by cs => cs.length
decreasing_by exact hlen

/-! ### Blanking, segment by segment -/

/-- The line after the characters. -/
def lineAfter (line : Nat) (cs : List Char) : Nat := cs.foldl nextLine line

/-- The column after the characters. -/
def columnAfter (column : Nat) (cs : List Char) : Nat := cs.foldl nextColumn column

theorem map_map {β γ : Type} (blanked : Except OpenComment (List Char)) (f : List Char → β)
    (g : β → γ) : (blanked.map f).map g = blanked.map fun cs => g (f cs) := by
  cases blanked <;> rfl

/-- A character is kept in a string, and in code unless it begins a comment. -/
theorem blankFrom_keep {lexical : Lexical} {c : Char}
    (h : lexical = .code ∧ (c = '/' → rest.head? ≠ some '/' ∧ rest.head? ≠ some '*') ∨
      lexical = .string ∨ lexical = .escape) (line column : Nat) :
    blankFrom lexical line column (c :: rest) =
      (blankFrom (lexical.after c) (nextLine line c) (nextColumn column c) rest).map (c :: ·) := by
  obtain ⟨rfl, hslash⟩ | rfl | rfl := h
  · by_cases hc : c = '/'
    · cases rest with
      | nil =>
        rw [hc]
        rfl
      | cons d rest =>
        have hd : d ≠ '/' ∧ d ≠ '*' := by simpa using hslash hc
        rw [blankFrom]
        all_goals simp [hd]
    · rw [blankFrom]
      all_goals simp [hc]
  · rw [blankFrom]
    all_goals simp
  · rw [blankFrom]
    all_goals simp

/-- A character of a line comment is blanked. -/
theorem blankFrom_line_cons {c : Char} (hc : c ≠ '\n') (line column : Nat) :
    blankFrom .line line column (c :: rest) =
      (blankFrom .line (nextLine line c) (nextColumn column c) rest).map (blank c :: ·) := by
  rw [blankFrom, if_neg hc, blank, if_neg hc, nextLine, if_neg hc, nextColumn, if_neg hc]

/-- The line break behind a line comment is code. -/
theorem blankFrom_line_break (line column : Nat) :
    blankFrom .line line column ('\n' :: rest) = blankFrom .code line column ('\n' :: rest) := by
  rw [blankFrom, if_pos rfl, blankFrom_keep (Or.inl ⟨rfl, fun h => absurd h (by decide)⟩)]
  rfl

/-- A character of a block comment is blanked unless the comment ends with it. -/
theorem blankFrom_block_cons {c : Char} (hend : c = '*' → rest.head? ≠ some '/')
    (startLine startColumn line column : Nat) :
    blankFrom (.block startLine startColumn) line column (c :: rest) =
      (blankFrom (.block startLine startColumn) (nextLine line c) (nextColumn column c) rest).map
        (blank c :: ·) := by
  rw [blankFrom]
  · rfl
  · exact fun cs hc he => hend hc (congrArg List.head? he)

/-- Behind a string blanking goes on in code, and behind a string without an end in nothing. -/
theorem blankFrom_string (hfits : (Segment.string body closed).Fits rest) (line column : Nat) :
    blankFrom .string line column (body ++ stringEnd closed ++ rest) =
      (blankFrom .code (lineAfter line (body ++ stringEnd closed))
        (columnAfter column (body ++ stringEnd closed)) rest).map
          (body ++ stringEnd closed ++ ·) := by
  obtain ⟨hbody, hrest⟩ := hfits
  induction hbody generalizing line column with
  | @nil closed =>
    cases closed with
    | true => exact blankFrom_keep (Or.inr (Or.inl rfl)) line column
    | false =>
      rw [hrest rfl]
      rfl
  | @plain closed c body hquote hescape hbody ih =>
    have hafter : Lexical.string.after c = .string := by
      rw [Lexical.after, if_neg hescape, if_neg hquote]
    rw [List.cons_append, List.cons_append, blankFrom_keep (Or.inr (Or.inl rfl)), hafter,
      ih _ _ hrest, map_map]
    rfl
  | @escaped closed c body hbody ih =>
    have hafter : Lexical.string.after '\\' = .escape := rfl
    have hescaped : Lexical.escape.after c = .string := rfl
    rw [List.cons_append, List.cons_append, List.cons_append, List.cons_append,
      blankFrom_keep (Or.inr (Or.inl rfl)), hafter, blankFrom_keep (Or.inr (Or.inr rfl)),
      hescaped, ih _ _ hrest, map_map, map_map]
    rfl
  | dangling =>
    rw [hrest rfl]
    rfl

theorem blankFrom_line (hfits : (Segment.line body).Fits rest) (line column : Nat) :
    blankFrom .line line column (body ++ rest) =
      (blankFrom .code (lineAfter line body) (columnAfter column body) rest).map
        (body.map blank ++ ·) := by
  obtain ⟨hbody, hrest⟩ := hfits
  induction body generalizing line column with
  | nil =>
    have hcode : blankFrom .line line column rest = blankFrom .code line column rest := by
      rcases hrest with rfl | hrest
      · rfl
      · obtain ⟨rest, rfl⟩ := List.head?_eq_some_iff.mp hrest
        exact blankFrom_line_break line column
    exact hcode.trans (congrFun Except.map_id _).symm
  | cons c body ih =>
    rw [List.mem_cons, not_or] at hbody
    rw [List.cons_append, blankFrom_line_cons (Ne.symm hbody.1), ih _ _ hbody.2, map_map]
    rfl

/-- As long as it does not meet the end, blanking stays in the block comment. -/
theorem blankFrom_block (hbody : ¬['*', '/'] <:+: body) (hrest : rest.head? ≠ some '/')
    (startLine startColumn line column : Nat) :
    blankFrom (.block startLine startColumn) line column (body ++ rest) =
      (blankFrom (.block startLine startColumn) (lineAfter line body) (columnAfter column body)
        rest).map (body.map blank ++ ·) := by
  induction body generalizing line column with
  | nil => exact (congrFun Except.map_id _).symm
  | cons c body ih =>
    obtain ⟨hend, hbody⟩ := not_infix_cons_iff.mp hbody
    have hnext : c = '*' → (body ++ rest).head? ≠ some '/' := by
      intro hc
      cases body with
      | nil => exact hrest
      | cons d body => exact hend hc
    rw [List.cons_append, blankFrom_block_cons hnext, ih hbody, map_map]
    rfl

/-- Whatever the segment is, unless it is a block comment without an end, blanking goes on in
code behind it. -/
theorem blankFrom_segment (hfits : segment.Fits rest)
    (hclosed : ∀ body, segment ≠ .block body false) (line column : Nat) :
    blankFrom .code line column (segment.spelling ++ rest) =
      (blankFrom .code (lineAfter line segment.spelling) (columnAfter column segment.spelling)
        rest).map (segment.blanked ++ ·) := by
  cases segment with
  | code c =>
    obtain ⟨hquote, hslash⟩ := hfits
    have hafter : Lexical.code.after c = .code := if_neg hquote
    show blankFrom .code line column (c :: rest) = _
    rw [blankFrom_keep (Or.inl ⟨rfl, hslash⟩), hafter]
    rfl
  | string body closed =>
    have hslash : '"' = '/' → (body ++ stringEnd closed ++ rest).head? ≠ some '/' ∧
        (body ++ stringEnd closed ++ rest).head? ≠ some '*' := fun h => absurd h (by decide)
    have hafter : Lexical.code.after '"' = .string := rfl
    show blankFrom .code line column ('"' :: (body ++ stringEnd closed ++ rest)) = _
    rw [blankFrom_keep (Or.inl ⟨rfl, hslash⟩), hafter, blankFrom_string hfits, map_map]
    rfl
  | line body =>
    show blankFrom .code line column ('/' :: '/' :: (body ++ rest)) = _
    rw [blankFrom, blankFrom_line hfits, map_map]
    rfl
  | block body closed =>
    obtain ⟨hbody, -⟩ := hfits
    cases closed with
    | false => exact absurd rfl (hclosed body)
    | true =>
      -- both ends of the comment are two characters that are blanked at once
      show blankFrom .code line column ('/' :: '*' :: (body ++ ['*', '/'] ++ rest)) = _
      have hend : ∀ endLine endColumn,
          blankFrom (.block line column) endLine endColumn (['*', '/'] ++ rest) =
            (blankFrom .code endLine (endColumn + 2) rest).map (' ' :: ' ' :: ·) := by
        intro endLine endColumn
        rw [List.cons_append, List.cons_append, List.nil_append, blankFrom]
      have hline : lineAfter line (Segment.block body true).spelling = lineAfter line body := by
        simp [Segment.spelling, blockEnd, lineAfter, nextLine]
      have hcolumn : columnAfter column (Segment.block body true).spelling =
          columnAfter (column + 2) body + 2 := by
        simp [Segment.spelling, blockEnd, columnAfter, nextColumn]
      have hblanked : ∀ cs, (Segment.block body true).blanked ++ cs =
          ' ' :: ' ' :: (body.map blank ++ ' ' :: ' ' :: cs) := by
        intro cs
        simp [Segment.blanked, Segment.isComment, Segment.spelling, blockEnd, blank]
      rw [blankFrom, List.append_assoc, blankFrom_block hbody (by simp), hend, map_map, map_map,
        hline, hcolumn]
      simp only [hblanked]

/-- A block comment without an end is reported where it begins. -/
theorem blankFrom_open_block (hfits : (Segment.block body false).Fits rest) (line column : Nat) :
    blankFrom .code line column ((Segment.block body false).spelling ++ rest) =
      .error ⟨line, column⟩ := by
  obtain ⟨hbody, hrest⟩ := hfits
  rw [hrest rfl]
  show blankFrom .code line column ('/' :: '*' :: (body ++ [] ++ [])) = _
  rw [blankFrom, List.append_nil, blankFrom_block hbody (by simp)]
  rfl

/-! ### Blanking a whole text -/

theorem Lexing.nil_of_open {text : List Char} (h : Lexing (.block body false :: segments) text) :
    segments = [] := by
  obtain ⟨rest, -, hfits, hrest⟩ := h
  rw [hfits.2 rfl] at hrest
  exact hrest.eq_nil

/-- Only the last segment can be a block comment without an end. -/
theorem Lexing.closed_or_open : ∀ {segments : List Segment} {text : List Char},
    Lexing segments text → (∀ body, Segment.block body false ∉ segments) ∨
      ∃ front body, segments = front ++ [Segment.block body false]
  | [], _, _ => Or.inl fun _ => List.not_mem_nil
  | segment :: segments, _, h => by
    -- a block comment without an end leaves nothing for other segments
    by_cases hopen : ∃ body, segment = .block body false
    · obtain ⟨body, rfl⟩ := hopen
      exact Or.inr ⟨[], body, by rw [h.nil_of_open]; rfl⟩
    · obtain ⟨rest, -, -, hrest⟩ := h
      rcases hrest.closed_or_open with hclosed | ⟨front, body, rfl⟩
      · refine Or.inl fun body hm => ?_
        rcases List.mem_cons.mp hm with he | hm
        · exact hopen ⟨body, he.symm⟩
        · exact hclosed body hm
      · exact Or.inr ⟨segment :: front, body, rfl⟩

/-- Without a block comment that lacks its end, what is left is what is left of the segments. -/
theorem Lexing.blankFrom_eq_ok : ∀ {segments : List Segment} {text : List Char},
    Lexing segments text → (∀ body, Segment.block body false ∉ segments) →
    ∀ line column, blankFrom .code line column text = .ok (segments.flatMap Segment.blanked)
  | [], _, h, _, _, _ => by
    rw [h]
    rfl
  | segment :: segments, _, ⟨rest, htext, hfits, h⟩, hclosed, line, column => by
    have hfirst : ∀ body, segment ≠ .block body false := fun body he =>
      hclosed body (he ▸ List.mem_cons_self)
    have ih := h.blankFrom_eq_ok fun body hm => hclosed body (List.mem_cons_of_mem _ hm)
    rw [htext, blankFrom_segment hfits hfirst, ih]
    rfl

/-- A block comment that lacks its end is reported at the line and the column behind all that
stands in front of it. -/
theorem Lexing.blankFrom_eq_error : ∀ {front : List Segment} {text : List Char},
    Lexing (front ++ [.block body false]) text → ∀ line column,
    blankFrom .code line column text =
      .error ⟨lineAfter line (front.flatMap Segment.spelling),
        columnAfter column (front.flatMap Segment.spelling)⟩
  | [], _, ⟨rest, htext, hfits, _⟩, line, column => by
    rw [htext, blankFrom_open_block hfits]
    rfl
  | segment :: front, _, h, line, column => by
    have hclosed : ∀ body, segment ≠ .block body false := by
      rintro body rfl
      simpa using Lexing.nil_of_open h
    obtain ⟨rest, rfl, hfits, hrest⟩ := h
    rw [blankFrom_segment hfits hclosed, Lexing.blankFrom_eq_error hrest, List.flatMap_cons,
      lineAfter, lineAfter, lineAfter, columnAfter, columnAfter, columnAfter, List.foldl_append,
      List.foldl_append]
    rfl

/-! ### Lines and columns -/

/-- The line after some characters is the number of line breaks among them. -/
theorem lineAfter_eq_count (cs : List Char) : lineAfter 0 cs = cs.count '\n' := by
  induction cs using List.reverseRecOn with
  | nil => rfl
  | append_singleton cs c ih =>
    rw [lineAfter] at ih
    rw [lineAfter, List.foldl_append, ih, List.count_append]
    by_cases hc : c = '\n' <;> simp [nextLine, hc]

/-- The column after some characters is the number of those behind the last line break. -/
theorem columnAfter_eq_length (cs : List Char) :
    columnAfter 0 cs = (cs.reverse.takeWhile (· ≠ '\n')).length := by
  induction cs using List.reverseRecOn with
  | nil => rfl
  | append_singleton cs c ih =>
    rw [columnAfter] at ih
    rw [columnAfter, List.foldl_append, ih, List.reverse_append]
    by_cases hc : c = '\n' <;> simp [nextColumn, hc]

/-- **Only comments are blanked out.** A text falls into segments in exactly one way, in which
only the last can be a block comment without an end. If none is, blanking keeps the code and
the strings and leaves of the comments the line breaks, with spaces for all else; if one is,
it is reported at the line and the column where it begins. -/
theorem blankComments_of_lexing (text : String) :
    (∃! segments, Lexing segments text.toList) ∧
      ∀ segments, Lexing segments text.toList →
        ((∀ body, Segment.block body false ∉ segments) ∨
          ∃ front body, segments = front ++ [Segment.block body false]) ∧
        ((∀ body, Segment.block body false ∉ segments) →
          blankComments text = .ok (String.ofList (segments.flatMap Segment.blanked))) ∧
        ∀ front body, segments = front ++ [Segment.block body false] →
          blankComments text = .error
            ⟨(front.flatMap Segment.spelling).count '\n',
              ((front.flatMap Segment.spelling).reverse.takeWhile (· ≠ '\n')).length⟩ := by
  refine ⟨existsUnique_lexing text.toList, fun segments h => ⟨h.closed_or_open, ?_, ?_⟩⟩
  · intro hclosed
    rw [blankComments, h.blankFrom_eq_ok hclosed]
    rfl
  · rintro front body rfl
    rw [blankComments, h.blankFrom_eq_error, lineAfter_eq_count, columnAfter_eq_length]
    rfl

/-- Slashes and an escaped quote in a string, a quote in either kind of comment, and a block
comment that seems to end with its second star. -/
def interlocked : List Segment :=
  [.string ['a', '\\', '"', '/', '/'] true, .code ' ', .block ['/', '"', '\n', '*'] true, .code '1',
    .line ['"']]

theorem interlocked_lexing : Lexing interlocked "\"a\\\"//\" /*/\"\n**/1//\"".toList := by
  have hstring : StringBody true ['a', '\\', '"', '/', '/'] :=
    .plain (by decide) (by decide) (.escaped _
      (.plain (by decide) (by decide) (.plain (by decide) (by decide) .nil)))
  exact ⟨_, rfl, ⟨hstring, by decide⟩, _, rfl, ⟨by decide, by decide⟩, _, rfl,
    ⟨by decide, by decide⟩, _, rfl, ⟨by decide, by decide⟩, _, rfl, ⟨by decide, Or.inl rfl⟩, rfl⟩

theorem blankComments_interlocked :
    Lexing interlocked "\"a\\\"//\" /*/\"\n**/1//\"".toList ∧
      blankComments "\"a\\\"//\" /*/\"\n**/1//\"" = .ok "\"a\\\"//\"     \n   1   " ∧
      Lexing [.code '\n', .code ' ', .block ['/'] false] "\n /*/".toList ∧
      blankComments "\n /*/" = .error ⟨1, 1⟩ := by
  have hopen : Lexing [.code '\n', .code ' ', .block ['/'] false] "\n /*/".toList :=
    ⟨_, rfl, ⟨by decide, by decide⟩, _, rfl, ⟨by decide, by decide⟩, _, rfl,
      ⟨by decide, fun _ => rfl⟩, rfl⟩
  refine ⟨interlocked_lexing, ?_, hopen, ?_⟩
  · exact ((blankComments_of_lexing _).2 _ interlocked_lexing).2.1 (by simp [interlocked])
  · exact ((blankComments_of_lexing _).2 _ hopen).2.2 [.code '\n', .code ' '] ['/'] rfl

end Json
end TypedConfig
