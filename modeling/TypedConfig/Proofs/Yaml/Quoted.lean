/-
# Strings as quoted scalars

The strings of JSON are the double-quoted scalars of YAML, but for one thing: YAML
reads the code of a surrogate as a character of its own, so a character written as
two surrogates is no scalar. All other pieces of a string are read as the characters
that they stand for (`Scan.quotedText_pieces`). Spaces are where the scanner
interrupts its work: a string is words with spaces between them.

Key definitions: `Scan.isSpace`.
Key theorems: `Scan.quotedWord_pieces`, `Scan.quotedGap_spaces`,
`Scan.quotedText_pieces`.
-/
import TypedConfig.Proofs.Yaml.Spacing
import TypedConfig.Proofs.Json.Syntax
import TypedConfig.Yaml.Quoted

namespace TypedConfig

namespace Json

theorem hexValue_lt {c : Char} (h : Text.isHexDigit c = true) : Text.hexValue c < 16 := by
  simp only [Text.isHexDigit, Text.isDigit, Bool.or_eq_true, Bool.and_eq_true,
    decide_eq_true_eq, Char.le_def, UInt32.le_iff_toNat_le] at h
  have hval : c.toNat = c.val.toNat := rfl
  unfold Text.hexValue Text.isDigit
  simp only [Bool.and_eq_true, decide_eq_true_eq, Char.le_def, UInt32.le_iff_toNat_le, hval]
  rw [show '0'.val.toNat = 48 from rfl, show '9'.val.toNat = 57 from rfl,
    show 'a'.val.toNat = 97 from rfl, show 'f'.val.toNat = 102 from rfl,
    show 'A'.val.toNat = 65 from rfl, show 'F'.val.toNat = 70 from rfl] at h
  rw [show '0'.val.toNat = 48 from rfl, show '9'.val.toNat = 57 from rfl,
    show 'a'.val.toNat = 97 from rfl, show 'A'.toNat = 65 from rfl,
    show '0'.toNat = 48 from rfl, show 'a'.toNat = 97 from rfl]
  split
  · omega
  · split <;> omega

/-- Digits to base sixteen, one more than they are, bound what they write. -/
theorem foldl_hex_lt : ∀ (cs : List Char) (n : Nat), (∀ c ∈ cs, Text.isHexDigit c = true) →
    cs.foldl (fun code c => 16 * code + Text.hexValue c) n < (n + 1) * Nat.pow 16 cs.length
  | [], n, _ => Nat.lt_of_lt_of_eq (Nat.lt_succ_self n) (Nat.mul_one _).symm
  | c :: cs, n, h => by
    have hc := hexValue_lt (h c List.mem_cons_self)
    have ih := foldl_hex_lt cs (16 * n + Text.hexValue c)
      fun d hd => h d (List.mem_cons_of_mem _ hd)
    rw [List.foldl_cons, List.length_cons]
    calc cs.foldl (fun code c => 16 * code + Text.hexValue c) (16 * n + Text.hexValue c)
        < (16 * n + Text.hexValue c + 1) * Nat.pow 16 cs.length := ih
      _ ≤ ((n + 1) * 16) * Nat.pow 16 cs.length := Nat.mul_le_mul_right _ (by omega)
      _ = (n + 1) * (Nat.pow 16 cs.length * 16) := by rw [Nat.mul_assoc, Nat.mul_comm 16]

theorem CodeUnit.value_lt (unit : CodeUnit) : unit.value < 0x10000 := by
  have h := foldl_hex_lt unit.digits 0 (List.all_eq_true.mp unit.hex)
  rw [unit.length_eq] at h
  exact h

theorem CodeUnit.isValidChar (unit : CodeUnit) (h : unit.isSurrogate = false) :
    unit.value.isValidChar := by
  have hlt := unit.value_lt
  unfold isSurrogate at h
  simp only [Bool.and_eq_false_iff, decide_eq_false_iff_not] at h
  unfold Nat.isValidChar
  omega

end Json

namespace Yaml
namespace Scan

open Json

variable {s : ScanState} {mark : Mark} {lb : Bool} {cs tail : List Char}

/-- Several characters are read at once. -/
theorem skipMany_moved (s : ScanState) (cs : List Char) :
    ∀ (xs : List Char) (mark : Mark) (lb : Bool), xs ≠ [] →
    ∃ m, mark.column ≤ m.column ∧
      skipMany xs.length (s.moved (xs ++ cs) mark lb) = .ok ((), s.moved cs m false)
  | [x], mark, lb, _ => ⟨_, Nat.le_succ _, rfl⟩
  | x :: y :: xs, mark, lb, _ => by
    obtain ⟨m, hm, ih⟩ := skipMany_moved s cs (y :: xs)
      ⟨mark.index + 1, mark.line, mark.column + 1⟩ false (List.cons_ne_nil y xs)
    exact ⟨m, Nat.le_of_succ_le hm, (bind_of_ok skip_moved _).trans ih⟩

/-! ### Escapes -/

theorem lookup_escapes {escape : Char × Char} (h : escape ∈ letterEscapes) :
    escapes.lookup escape.1 = some escape.2 := by
  revert escape
  decide

theorem escape_letter (s : ScanState) (cs : List Char) (mark : Mark) (lb : Bool)
    {escape : Char × Char} (h : escape ∈ letterEscapes) (start : Mark) :
    ∃ m, mark.column ≤ m.column ∧
      Scan.escape start (s.moved ('\\' :: escape.1 :: cs) mark lb) =
        .ok (escape.2, s.moved cs m false) := by
  obtain ⟨m, hm, hskip⟩ := skipMany_moved s cs ['\\', escape.1] mark lb
    (List.cons_ne_nil _ _)
  refine ⟨m, hm, ?_⟩
  rw [Scan.escape, peekAt_one_moved, next_cons, lookup_escapes h]
  exact bind_of_ok hskip _

theorem codeEscape_unit (s : ScanState) (cs : List Char) (mark : Mark) (lb : Bool)
    (unit : CodeUnit) (h : unit.isSurrogate = false) (start : Mark) :
    ∃ m, mark.column ≤ m.column ∧
      codeEscape start 4 (s.moved (unit.digits ++ cs) mark lb) =
        .ok (Char.ofNat unit.value, s.moved cs m false) := by
  have htake : (unit.digits ++ cs).take 4 = unit.digits := by
    rw [← unit.length_eq, List.take_left']
    rfl
  have hdigits : (decide (unit.digits.length < 4) || !unit.digits.all Text.isHexDigit) = false := by
    rw [unit.length_eq, unit.hex]
    rfl
  have hvalid := unit.isValidChar h
  obtain ⟨m, hm, hskip⟩ := skipMany_moved s cs unit.digits mark lb
    (List.ne_nil_of_length_pos (by rw [unit.length_eq]; decide))
  rw [unit.length_eq] at hskip
  refine ⟨m, hm, ?_⟩
  have hread : read (fun s : ScanState => s.rest.take 4) (s.moved (unit.digits ++ cs) mark lb) =
      .ok (unit.digits, s.moved (unit.digits ++ cs) mark lb) := by
    rw [read]
    exact congrArg (fun ds => Except.ok (ds, _)) htake
  rw [codeEscape, bind_of_ok hread, if_neg (Bool.eq_false_iff.mp hdigits)]
  change (if h : unit.value.isValidChar then _ else _ : Scan Char) _ = _
  rw [dif_pos hvalid, bind_of_ok hskip]
  rw [Char.ofNat, dif_pos hvalid]
  rfl

theorem escape_code (s : ScanState) (cs : List Char) (mark : Mark) (lb : Bool)
    (unit : CodeUnit) (h : unit.isSurrogate = false) (start : Mark) :
    ∃ m, mark.column ≤ m.column ∧
      Scan.escape start (s.moved ('\\' :: 'u' :: (unit.digits ++ cs)) mark lb) =
        .ok (Char.ofNat unit.value, s.moved cs m false) := by
  obtain ⟨m, hm, hskip⟩ := skipMany_moved s (unit.digits ++ cs) ['\\', 'u'] mark lb
    (List.cons_ne_nil _ _)
  obtain ⟨m', hm', hcode⟩ := codeEscape_unit s cs m false unit h start
  refine ⟨m', Nat.le_trans hm hm', ?_⟩
  rw [Scan.escape, peekAt_one_moved, next_cons]
  exact (bind_of_ok hskip _).trans hcode

/-! ### Words and gaps -/

/-- Whether the piece is a space that stands for itself. -/
def isSpace (piece : StringPiece) : Bool := piece.spelling == [' ']

theorem isGap_of_plain {c : Char} (hc : 0x20 ≤ c.toNat) (hspace : c ≠ ' ') : isGap c = false := by
  have hne : ∀ d : Char, d.toNat < 0x20 → (c == d) = false := fun d hd =>
    beq_eq_false_iff_ne.mpr fun h => absurd (h ▸ hc) (Nat.not_le_of_lt hd)
  unfold isGap isBlank isLineEnd isBreak isEnd
  rw [beq_eq_false_iff_ne.mpr hspace, hne _ (by decide), hne _ (by decide), hne _ (by decide),
    hne _ (by decide)]
  rfl

/-- One turn of reading a word: an escape. -/
theorem quotedWord_escape {result : Char} (ds : List Char) {m : Mark} {start : Mark}
    (hbreak : isBreak (next (ds ++ cs)) = false)
    (h : Scan.escape start (s.moved ('\\' :: (ds ++ cs)) mark lb) =
      .ok (result, s.moved cs m false)) (text : List Char) :
    quotedWord false start text (s.moved ('\\' :: (ds ++ cs)) mark lb) =
      quotedWord false start (result :: text) (s.moved cs m false) := by
  have hlen : cs.length < ('\\' :: (ds ++ cs)).length := by
    rw [List.length_cons, List.length_append]
    omega
  refine loop_of_more ?_ hlen
  rw [peek_moved, peekAt_one_moved, next_cons, if_neg (by decide), if_neg (by decide),
    if_neg (by decide), if_pos (by decide), if_neg (Bool.eq_false_iff.mp hbreak)]
  exact bind_of_ok h _

/-- One turn of reading a word: a piece that is no space. -/
theorem quotedWord_piece (s : ScanState) (cs : List Char) (mark : Mark) (lb : Bool)
    {piece : StringPiece} (hp : isSpace piece = false)
    (hs : piece.isSurrogates = false) (start : Mark) (text : List Char) :
    ∃ m, mark.column ≤ m.column ∧
      quotedWord false start text (s.moved (piece.spelling ++ cs) mark lb) =
        quotedWord false start (piece.meaning :: text) (s.moved cs m false) := by
  cases piece with
  | plain c h =>
    obtain ⟨hquote, hbackslash, hcontrol⟩ := h
    change ([c] == [' ']) = false at hp
    have hgap : isGap c = false :=
      isGap_of_plain hcontrol fun hc => beq_eq_false_iff_ne.mp hp (congrArg ([·]) hc)
    refine ⟨⟨mark.index + 1, mark.line, mark.column + 1⟩, Nat.le_succ _, ?_⟩
    refine loop_of_more ?_ (Nat.lt_succ_self _)
    rw [StringPiece.spelling, List.singleton_append, peek_moved, peekAt_one_moved, next_cons]
    simp only [hgap, Bool.false_and, Bool.false_eq_true, if_false, Bool.not_false, Bool.true_and,
      beq_iff_eq, hquote, hbackslash]
    exact bind_of_ok skip_moved _
  | letter escape h =>
    obtain ⟨m, hm, hescape⟩ := escape_letter s cs mark lb h start
    have hbreak : ∀ escape ∈ letterEscapes, isBreak escape.1 = false := by decide
    exact ⟨m, hm, quotedWord_escape [escape.1] (hbreak escape h) hescape text⟩
  | code unit h =>
    obtain ⟨m, hm, hescape⟩ := escape_code s cs mark lb unit h start
    exact ⟨m, hm, quotedWord_escape ('u' :: unit.digits) rfl hescape text⟩
  | surrogates first second hf hs' => cases hs

theorem quotedWord_done (hc : isGap (next cs) = true ∨ next cs = '"') (start : Mark)
    (text : List Char) (hne : cs ≠ []) :
    quotedWord false start text (s.moved cs mark lb) = .ok ((text, false), s.moved cs mark lb) := by
  refine loop_of_done ?_
  obtain ⟨c, cs, rfl⟩ := List.exists_cons_of_ne_nil hne
  rw [next_cons] at hc
  rw [peek_moved, peekAt_one_moved, next_cons]
  rcases hc with hc | rfl
  · rw [if_pos hc]
    rfl
  · rfl

/-- A word of pieces that are no spaces is read up to the space or the quote after it. -/
theorem quotedWord_pieces (s : ScanState) (cs : List Char)
    (hc : isGap (next cs) = true ∨ next cs = '"') (hne : cs ≠ [])
    (start : Mark) : ∀ (pieces : List StringPiece) (text : List Char) (mark : Mark) (lb : Bool),
    (∀ piece ∈ pieces, isSpace piece = false ∧ piece.isSurrogates = false) →
    ∃ m lb', mark.column ≤ m.column ∧
      quotedWord false start text (s.moved (bodySpelling pieces ++ cs) mark lb) =
        .ok (((pieces.map (·.meaning)).reverse ++ text, false), s.moved cs m lb')
  | [], text, mark, lb, _ => ⟨mark, lb, Nat.le_refl _, quotedWord_done hc start text hne⟩
  | piece :: pieces, text, mark, lb, h => by
    obtain ⟨hp, hs⟩ := h piece List.mem_cons_self
    obtain ⟨m, hm, hpiece⟩ := quotedWord_piece s (bodySpelling pieces ++ cs) mark lb hp hs
      start text
    obtain ⟨m', lb', hm', hrest⟩ := quotedWord_pieces s cs hc hne start pieces
      (piece.meaning :: text) m false fun q hq => h q (List.mem_cons_of_mem _ hq)
    refine ⟨m', lb', Nat.le_trans hm hm', ?_⟩
    rw [bodySpelling_cons, List.append_assoc, hpiece, hrest,
      List.map_cons, List.reverse_cons, List.append_assoc, List.singleton_append]

/-- Spaces between two words are kept. -/
theorem quotedGap_spaces (s : ScanState) (lb : Bool)
    (hb : isBlank (next cs) = false) (hbreak : isBreak (next cs) = false) :
    ∀ (n : Nat) (mark : Mark), ∃ m, mark.column ≤ m.column ∧
      quotedGap false (s.moved (List.replicate n ' ' ++ cs) mark lb) =
        .ok (⟨false, false, List.replicate n ' ', []⟩, s.moved cs m lb) := by
  unfold quotedGap
  suffices h : ∀ (n k : Nat) (mark : Mark), ∃ m, mark.column ≤ m.column ∧
      loop _ (⟨false, false, List.replicate k ' ', []⟩ : Gap)
        (s.moved (List.replicate n ' ' ++ cs) mark lb) =
          .ok ((⟨false, false, List.replicate (n + k) ' ', []⟩ : Gap), s.moved cs m lb) from
    fun n => h n 0
  intro n
  induction n with
  | zero =>
    intro k mark
    refine ⟨mark, Nat.le_refl _, loop_of_done ?_⟩
    rw [List.replicate_zero, List.nil_append, peek_moved, if_neg (Bool.eq_false_iff.mp hb),
      if_neg (Bool.eq_false_iff.mp hbreak), Nat.zero_add]
    rfl
  | succ n ih =>
    intro k mark
    obtain ⟨m, hm, h⟩ := ih (k + 1) ⟨mark.index + 1, mark.line, mark.column + 1⟩
    refine ⟨m, Nat.le_of_succ_le hm, (loop_of_more ?_ (Nat.lt_succ_self _)).trans (h.trans ?_)⟩
    · rw [List.replicate_succ, List.cons_append, peek_moved]
      rfl
    · rw [Nat.add_right_comm, Nat.add_assoc]

/-! ### Texts -/

/-- Document indicators stand at the beginning of a line. -/
theorem atDocumentIndicator_inLine (hcol : 0 < s.mark.column) :
    atDocumentIndicator s = .ok (false, s) := by
  have hc : (s.mark.column == 0) = false := beq_eq_false_iff_ne.mpr (Nat.ne_of_gt hcol)
  have hindicator : ∀ c, atIndicator c s = .ok (false, s) := by
    intro c
    unfold atIndicator
    rw [here_bind, peekAt_bind, peekAt_bind, peekAt_bind, peekAt_bind, hc]
    rfl
  unfold atDocumentIndicator
  rw [bind_of_ok (hindicator '-'), bind_of_ok (hindicator '.')]
  rfl

/-- No string goes on with a control character. -/
theorem le_next_body (cs : List Char) (pieces : List StringPiece) :
    0x20 ≤ (next (bodySpelling pieces ++ '"' :: cs)).toNat := by
  cases pieces with
  | nil => exact (by decide : 0x20 ≤ ('"' : Char).toNat)
  | cons piece pieces =>
    rw [bodySpelling_cons, List.append_assoc]
    cases piece with
    | plain c h => exact h.2.2
    | _ => exact (by decide : 0x20 ≤ ('\\' : Char).toNat)

theorem isEnd_next_body (cs : List Char) (pieces : List StringPiece) :
    isEnd (next (bodySpelling pieces ++ '"' :: cs)) = false := by
  refine beq_eq_false_iff_ne.mpr fun h => ?_
  have hle := le_next_body cs pieces
  rw [h] at hle
  exact absurd hle (by decide)

theorem isSpace_facts {piece : StringPiece} (h : isSpace piece = true) :
    piece.spelling = [' '] ∧ piece.meaning = ' ' := by
  have hspell : piece.spelling = [' '] := eq_of_beq h
  refine ⟨hspell, ?_⟩
  cases piece with
  | plain c hc => exact List.singleton_inj.mp hspell
  | letter escape hc => cases hspell
  | code unit hc => cases hspell
  | surrogates first second hf hs => cases hspell

theorem spaces_facts : ∀ {pieces : List StringPiece}, (∀ piece ∈ pieces, isSpace piece = true) →
    bodySpelling pieces = List.replicate pieces.length ' ' ∧
      pieces.map (·.meaning) = List.replicate pieces.length ' '
  | [], _ => ⟨rfl, rfl⟩
  | piece :: pieces, h => by
    obtain ⟨hs, hm⟩ := isSpace_facts (h piece List.mem_cons_self)
    obtain ⟨ihs, ihm⟩ := spaces_facts fun p hp => h p (List.mem_cons_of_mem _ hp)
    constructor
    · rw [bodySpelling_cons, hs, ihs]
      rfl
    · rw [List.map_cons, hm, ihm]
      rfl

/-- Pieces that do not begin with a space are not written with one at the beginning. -/
theorem next_body_not_space {piece : StringPiece} (h : isSpace piece = false) :
    next (piece.spelling ++ cs) ≠ ' ' := by
  cases piece with
  | plain c hc =>
    intro he
    exact beq_eq_false_iff_ne.mp h (congrArg ([·]) (he : c = ' '))
  | _ => exact (by decide : ('\\' : Char) ≠ ' ')

theorem not_head_dropWhile {p : StringPiece → Bool} {pieces : List StringPiece}
    {piece : StringPiece} {rest : List StringPiece} (h : pieces.dropWhile p = piece :: rest) :
    p piece = false := by
  have hne : pieces.dropWhile p ≠ [] := h ▸ List.cons_ne_nil _ _
  have hhead := List.head_dropWhile_not p hne
  simpa only [h, List.head_cons] using hhead

/-- Pieces are a word, and after it nothing or spaces and further pieces. -/
theorem exists_word (cs : List Char) (pieces : List StringPiece) :
    ∃ word spaces rest, pieces = word ++ (spaces ++ rest) ∧
    (∀ piece ∈ word, isSpace piece = false) ∧ (∀ piece ∈ spaces, isSpace piece = true) ∧
      (spaces = [] → rest = []) ∧ next (bodySpelling rest ++ '"' :: cs) ≠ ' ' := by
  refine ⟨pieces.takeWhile (!isSpace ·), (pieces.dropWhile (!isSpace ·)).takeWhile isSpace,
    (pieces.dropWhile (!isSpace ·)).dropWhile isSpace, ?_, ?_, ?_, ?_, ?_⟩
  · rw [List.takeWhile_append_dropWhile, List.takeWhile_append_dropWhile]
  · intro piece hp
    exact Bool.not_eq_true' _ ▸ List.all_eq_true.mp List.all_takeWhile piece hp
  · exact List.all_eq_true.mp List.all_takeWhile
  · intro hnil
    cases hd : pieces.dropWhile (!isSpace ·) with
    | nil => rfl
    | cons piece rest =>
      have hspace : isSpace piece = true := by simpa using not_head_dropWhile hd
      rw [hd, List.takeWhile_cons_of_pos hspace] at hnil
      cases hnil
  · cases hd : (pieces.dropWhile (!isSpace ·)).dropWhile isSpace with
    | nil => exact (by decide : ('"' : Char) ≠ ' ')
    | cons piece rest =>
      rw [bodySpelling_cons, List.append_assoc]
      exact next_body_not_space (not_head_dropWhile hd)

/-- The body of a string is read as the characters that its pieces stand for. -/
theorem quotedText_pieces (s : ScanState) (cs : List Char) (mark : Mark) (lb : Bool)
    (hi : s.indent < 0) (start : Mark) (pieces : List StringPiece)
    (h : ∀ piece ∈ pieces, piece.isSurrogates = false) (hcol : 0 < mark.column) :
    ∃ m lb', quotedText false start (s.moved (bodySpelling pieces ++ '"' :: cs) mark lb) =
      .ok (pieces.map (·.meaning), s.moved ('"' :: cs) m lb') := by
  have hcolumn : ∀ cs mark lb,
      ¬((s.moved cs mark lb).mark.column : Int) < (s.moved cs mark lb).indent := by
    intro cs mark lb
    change ¬(mark.column : Int) < s.indent
    omega
  unfold quotedText
  suffices hloop : ∀ (n : Nat) (pieces : List StringPiece) (text : List Char) (mark : Mark)
      (lb : Bool), pieces.length < n → (∀ piece ∈ pieces, piece.isSurrogates = false) →
      0 < mark.column →
      ∃ m lb', loop _ text (s.moved (bodySpelling pieces ++ '"' :: cs) mark lb) =
        .ok ((pieces.map (·.meaning)).reverse ++ text, s.moved ('"' :: cs) m lb') by
    obtain ⟨m, lb', hrun⟩ := hloop _ pieces [] mark lb (Nat.lt_succ_self _) h hcol
    refine ⟨m, lb', (bind_of_ok hrun _).trans ?_⟩
    rw [List.append_nil, List.reverse_reverse]
    rfl
  intro n
  induction n with
  | zero => exact fun pieces text mark lb hlen => absurd hlen (Nat.not_lt_zero _)
  | succ n ih =>
    intro pieces text mark lb hlen hs hcol
    have hinLine : 0 < (s.moved (bodySpelling pieces ++ '"' :: cs) mark lb).mark.column := hcol
    obtain ⟨word, spaces, rest, rfl, hword, hspaces, hend, hnext⟩ := exists_word cs pieces
    have hmap : bodySpelling (word ++ (spaces ++ rest)) ++ '"' :: cs =
        bodySpelling word ++ (bodySpelling spaces ++ (bodySpelling rest ++ '"' :: cs)) := by
      simp only [bodySpelling, List.flatMap_append, List.append_assoc]
    have hpieces : ∀ p ∈ word, isSpace p = false ∧ p.isSurrogates = false := fun p hp =>
      ⟨hword p hp, hs p (List.mem_append_left _ hp)⟩
    cases spaces with
    | nil =>
      obtain rfl := hend rfl
      obtain ⟨m, lb', hm, hread⟩ := quotedWord_pieces s ('"' :: cs) (Or.inr rfl)
        (List.cons_ne_nil _ _) start word text mark lb hpieces
      rw [List.append_nil, List.append_nil] at hinLine ⊢
      refine ⟨m, lb', loop_of_done ?_⟩
      rw [get_bind, bind_of_ok (atDocumentIndicator_inLine hinLine), if_neg Bool.false_ne_true,
        peek_moved, if_neg (Bool.eq_false_iff.mp (isEnd_next_body cs word)),
        if_neg (hcolumn _ _ _), bind_of_ok hread]
      rfl
    | cons space spaces =>
      obtain ⟨hspell, hmean⟩ := spaces_facts hspaces
      rw [hspell] at hmap
      obtain ⟨m, lb', hm, hread⟩ := quotedWord_pieces s
        (List.replicate (space :: spaces).length ' ' ++ (bodySpelling rest ++ '"' :: cs))
        (Or.inl rfl) (List.cons_ne_nil _ _) start word text mark lb hpieces
      have hgap := isGap_of_plain (le_next_body cs rest) hnext
      have hblank := (Bool.or_eq_false_iff.mp hgap).1
      have hbreak := (Bool.or_eq_false_iff.mp (Bool.or_eq_false_iff.mp hgap).2).1
      obtain ⟨m', hm', hgap⟩ := quotedGap_spaces s lb' hblank hbreak
        (space :: spaces).length m
      have hshort : rest.length < n := by
        rw [List.length_append, List.length_append, List.length_cons] at hlen
        omega
      obtain ⟨m'', lb'', hrest⟩ := ih rest (List.replicate (space :: spaces).length ' ' ++
          ((word.map (·.meaning)).reverse ++ text)) m' lb' hshort
        (fun p hp => hs p (List.mem_append_right _ (List.mem_append_right _ hp)))
        (Nat.lt_of_lt_of_le hcol (Nat.le_trans hm hm'))
      have hmap' : isEnd (next (bodySpelling word ++ (List.replicate (space :: spaces).length ' ' ++
          (bodySpelling rest ++ '"' :: cs)))) = false :=
        hmap ▸ isEnd_next_body cs _
      refine ⟨m'', lb'', (loop_of_more ?_ ?_).trans (hrest.trans ?_)⟩
      · rw [hmap] at hinLine ⊢
        rw [get_bind, bind_of_ok (atDocumentIndicator_inLine hinLine), if_neg Bool.false_ne_true,
          peek_moved, if_neg (Bool.eq_false_iff.mp hmap'), if_neg (hcolumn _ _ _),
          bind_of_ok hread]
        refine (bind_of_ok hgap fun gap => pure (gap.text.reverse ++ _, true)).trans ?_
        rw [Gap.text, if_neg Bool.false_ne_true, List.reverse_reverse]
        rfl
      · rw [hmap]
        change (bodySpelling rest ++ '"' :: cs).length < List.length _
        simp only [List.length_append, List.length_replicate, List.length_cons]
        omega
      · simp only [List.map_append, List.reverse_append, List.append_assoc, hmean,
          List.reverse_replicate]

end Scan
end Yaml
end TypedConfig
