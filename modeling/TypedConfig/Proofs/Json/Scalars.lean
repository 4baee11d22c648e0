/-
# The strings and numbers that were read

When the strict reader succeeds with a string or a number, what it has read is one: the
pieces of the string up to its closing quote, or the digits, the fraction and the power
of the number. Of a character beyond ASCII, each byte is one turn of the loop over a
string, and no byte but the first adds a piece to it.

Key theorems: `Read.codeUnit_ok`, `Read.escape_ok`, `Read.stringRest_ok`, `Read.number_ok`.
-/
import TypedConfig.Json.Grammar
import TypedConfig.Proofs.Json.Reading

namespace TypedConfig
namespace Json
namespace Read

variable {s t : Cursor} {cs : List Char}

/-! ### Strings -/

/-- As many bytes are skipped as there are in a list. -/
theorem skip_all : ∀ (as : List Char) {s : Cursor}, s.left = s.rest.length →
    ∃ u, (forIn as () fun _ _ => (do skip; pure (.yield ()) : Read (ForInStep Unit))) s =
        .ok ((), u) ∧ u.rest = s.rest.drop as.length ∧ u.left = u.rest.length
  | [], s, h => ⟨s, rfl, rfl, h⟩
  | a :: as, s, h => by
    obtain ⟨u, hu, hrest, hleft⟩ := skip_all as (Cursor.next_left h)
    refine ⟨u, ?_, ?_, hleft⟩
    · rw [List.forIn_cons]
      exact hu
    · rw [hrest, Cursor.next_rest, List.length_cons, List.drop_tail]

theorem codeUnit_ok {v : Nat} (hs : s.At cs) (h : codeUnit s = .ok (v, t)) :
    ∃ (unit : CodeUnit) (more : List Char), cs = unit.digits ++ more ∧ t.At more ∧
      v = unit.value := by
  obtain ⟨w, s', hget, h⟩ := ok_of_bind h
  cases hget
  obtain ⟨⟨⟩, u, hskip, h⟩ := ok_of_bind h
  obtain ⟨u', hu, hrest, hleft⟩ := skip_all (s.rest.take 4) hs.left
  cases hskip.symm.trans hu
  split at h
  · exact absurd h fault_ne
  next hlong =>
    split at h
    next hhex =>
      cases h
      have hall : ∀ c ∈ s.rest.take 4, isAscii c = true := fun c hc =>
        isAscii_hexDigit (List.all_eq_true.mp hhex c hc)
      have hlength : (s.rest.take 4).length = 4 :=
        Nat.le_antisymm (List.length_take_le 4 _) (Nat.le_of_not_lt hlong)
      obtain ⟨more, hcs, hmore⟩ := exists_of_encode_append hall
        (hs.rest.symm.trans (List.take_append_drop 4 s.rest).symm)
      refine ⟨⟨s.rest.take 4, hlength, hhex⟩, more, hcs, ⟨?_, hleft⟩, rfl⟩
      rw [hrest, hlength, hmore]
    · exact absurd h fault_ne

theorem surrogateMark_ok {c : Char} (hc : isAscii c = true) (hs : s.At cs)
    (h : surrogateMark c s = .ok ((), t)) : ∃ more, cs = c :: more ∧ t.At more := by
  rw [surrogateMark, next?_bind] at h
  cases hhead : s.rest.head? with
  | none =>
    rw [hhead] at h
    exact absurd h fault_ne
  | some d =>
    rw [hhead] at h
    dsimp only at h
    split at h
    next heq =>
      cases h
      exact hs.of_head hc (heq ▸ hhead)
    · exact absurd h fault_ne

/-- After `\\u`, the digits of a code unit or of two surrogates are read. -/
theorem codeEscape_ok (hs : s.At cs) (h : codeEscape s = .ok ((), t)) :
    ∃ (piece : StringPiece) (digits more : List Char),
      piece.spelling = '\\' :: 'u' :: digits ∧ cs = digits ++ more ∧ t.At more := by
  obtain ⟨first, u, hfirst, h⟩ := ok_of_bind h
  obtain ⟨unit, more, rfl, hu, rfl⟩ := codeUnit_ok hs hfirst
  dsimp only at h
  split at h
  · exact absurd h fault_bind_ne
  next htrailing =>
    split at h
    next hleading =>
      obtain ⟨⟨⟩, u₁, hbackslash, h⟩ := ok_of_bind h
      obtain ⟨more, rfl, hu₁⟩ := surrogateMark_ok rfl hu hbackslash
      obtain ⟨⟨⟩, u₂, hletter, h⟩ := ok_of_bind h
      obtain ⟨more, rfl, hu₂⟩ := surrogateMark_ok rfl hu₁ hletter
      obtain ⟨_, u₃, hsecond, h⟩ := ok_of_bind h
      obtain ⟨second, more, rfl, hu₃, rfl⟩ := codeUnit_ok hu₂ hsecond
      split at h
      · exact absurd h fault_ne
      next hbounds =>
        cases h
        simp only [Bool.and_eq_true, Bool.or_eq_true, decide_eq_true_eq] at hleading hbounds
        refine ⟨.surrogates unit second hleading (by omega),
          unit.digits ++ '\\' :: 'u' :: second.digits, more, rfl, ?_, hu₃⟩
        rw [List.append_assoc, List.cons_append, List.cons_append]
    next hleading =>
      cases h
      have hsurrogate : unit.isSurrogate = false := by
        rw [CodeUnit.isSurrogate]
        simp only [Bool.and_eq_true, Bool.and_eq_false_iff, decide_eq_true_eq,
          decide_eq_false_iff_not] at htrailing hleading ⊢
        omega
      exact ⟨.code unit hsurrogate, unit.digits, more, rfl, rfl, hu⟩

/-- After a backslash, the rest of an escape is read. -/
theorem escape_ok (hs : s.At cs) (h : escape s = .ok ((), t)) :
    ∃ (piece : StringPiece) (rest more : List Char),
      piece.spelling = '\\' :: rest ∧ cs = rest ++ more ∧ t.At more := by
  rw [escape, next?_bind] at h
  cases hhead : s.rest.head? with
  | none =>
    rw [hhead] at h
    exact absurd h fault_ne
  | some c =>
    rw [hhead] at h
    dsimp only at h
    split at h
    next hc =>
      obtain rfl := beq_iff_eq.mp hc
      obtain ⟨more, rfl, hnext⟩ := hs.of_head rfl hhead
      obtain ⟨piece, digits, more, hpiece, rfl, ht⟩ := codeEscape_ok hnext h
      exact ⟨piece, 'u' :: digits, more, hpiece, rfl, ht⟩
    next hc =>
      split at h
      next hletter =>
        cases h
        have hfacts : ∀ d ∈ "\"\\/bfnrt".toList, isAscii d = true ∧
            ∃ escape ∈ letterEscapes, escape.1 = d := forall_mem_of_all (by decide)
        obtain ⟨hascii, e, he, rfl⟩ := hfacts c (List.contains_iff_mem.mp hletter)
        obtain ⟨more, rfl, hnext⟩ := hs.of_head hascii hhead
        exact ⟨.letter e he, [e.1], more, rfl, rfl, hnext⟩
      · exact absurd h fault_ne

theorem plain_of_not_ascii {c : Char} (hc : isAscii c = false) :
    c ≠ '"' ∧ c ≠ '\\' ∧ 0x20 ≤ c.toNat := by
  have hbound : ¬c.toNat < 128 := of_decide_eq_false hc
  refine ⟨?_, ?_, by omega⟩
  · rintro rfl
    cases hc
  · rintro rfl
    cases hc

/-- A string is read up to its closing quote. -/
theorem stringRest_ok (hs : s.At cs) (h : stringRest s = .ok ((), t)) :
    ∃ (pieces : List StringPiece) (more : List Char),
      cs = bodySpelling pieces ++ '"' :: more ∧ t.At more := by
  have hwithin := hs.within
  clear hs
  revert cs
  refine loop_ok (motive := fun _ s => ∀ {cs}, s.Within cs →
    ∃ (pieces : List StringPiece) (more : List Char),
      cs = bodySpelling pieces ++ '"' :: more ∧ t.At more) ?_ () s h
  intro _ s _ goOn u hstep hmore hend cs hs
  rw [next?_bind] at hstep
  cases hhead : s.rest.head? with
  | none =>
    rw [hhead] at hstep
    exact absurd hstep fault_ne
  | some c =>
    have hless := Cursor.next_left_lt hs.left hhead
    rw [hhead] at hstep
    dsimp only at hstep
    split at hstep
    next hc =>
      obtain rfl := beq_iff_eq.mp hc
      cases hstep
      obtain ⟨-, rfl⟩ := hend (Or.inl rfl)
      obtain ⟨more, rfl, hnext⟩ := hs.of_head rfl hhead
      exact ⟨[], more, rfl, hnext⟩
    next hquote =>
      split at hstep
      next hc =>
        obtain rfl := beq_iff_eq.mp hc
        obtain ⟨⟨⟩, u', hescape, hstep⟩ := ok_of_bind hstep
        cases hstep
        obtain ⟨more, rfl, hnext⟩ := hs.of_head rfl hhead
        obtain ⟨piece, rest, more, hpiece, rfl, hu⟩ := escape_ok hnext hescape
        have hfewer := Nat.lt_of_le_of_lt (hnext.left_le hu) hless
        obtain ⟨pieces, more, rfl, ht⟩ := hmore rfl hfewer hu.within
        refine ⟨piece :: pieces, more, ?_, ht⟩
        rw [bodySpelling_cons, hpiece, List.append_assoc, List.cons_append]
      next hbackslash =>
        split at hstep
        · exact absurd hstep fault_ne
        next hcontrol =>
          cases hstep
          obtain hnext | ⟨d, more, rfl, hd, hnext⟩ := hs.next hhead
          · exact hmore rfl hless hnext
          have hplain : d ≠ '"' ∧ d ≠ '\\' ∧ 0x20 ≤ d.toNat := by
            rcases hd with rfl | hd
            · exact ⟨fun h => hquote (beq_iff_eq.mpr h), fun h => hbackslash (beq_iff_eq.mpr h),
                Nat.le_of_not_lt hcontrol⟩
            · exact plain_of_not_ascii hd
          obtain ⟨pieces, more, rfl, ht⟩ := hmore rfl hless hnext
          exact ⟨.plain d hplain :: pieces, more, rfl, ht⟩

/-! ### Numbers -/

theorem digits_ok {ds : List Char} (hs : s.At cs) (h : digits s = .ok (ds, t)) :
    ∃ more, cs = ds ++ more ∧ (∀ c ∈ ds, Text.isDigit c = true) ∧ t.At more :=
  takeWhile_ok (fun _ => isAscii_digit) hs h

theorem isDigits_cons {c : Char} {ds : List Char} (hc : Text.isDigit c = true)
    (hds : ∀ d ∈ ds, Text.isDigit d = true) : Number.isDigits (c :: ds) = true :=
  List.all_eq_true.mpr (List.forall_mem_cons.mpr ⟨hc, hds⟩)

theorem whole_ok {ds : List Char} (hs : s.At cs) (h : whole s = .ok (ds, t)) :
    ∃ more, cs = ds ++ more ∧ t.At more ∧ Number.isDigits ds = true ∧
      (ds.head? = some '0' → ds = ['0']) := by
  rw [whole, next?_bind] at h
  cases hhead : s.rest.head? with
  | none =>
    rw [hhead] at h
    exact absurd h fault_ne
  | some c =>
    rw [hhead] at h
    dsimp only at h
    split at h
    next hc =>
      obtain rfl := beq_iff_eq.mp hc
      obtain ⟨more, rfl, hnext⟩ := hs.of_head rfl hhead
      obtain ⟨d?, u, hpeek, h⟩ := ok_of_bind h
      cases hpeek
      have hend : ds = ['0'] ∧ t = s.next := by
        cases hnexthead : s.next.rest.head? with
        | none =>
          rw [hnexthead] at h
          cases h
          exact ⟨rfl, rfl⟩
        | some d =>
          rw [hnexthead] at h
          dsimp only at h
          split at h
          · exact absurd h faultAhead_ne
          · cases h
            exact ⟨rfl, rfl⟩
      obtain ⟨rfl, rfl⟩ := hend
      exact ⟨more, rfl, hnext, rfl, fun _ => rfl⟩
    next hzero =>
      split at h
      next hc =>
        obtain ⟨more, rfl, hnext⟩ := hs.of_head (isAscii_digit hc) hhead
        obtain ⟨tail, u, htail, h⟩ := ok_of_bind h
        cases h
        obtain ⟨more, rfl, hall, ht⟩ := digits_ok hnext htail
        refine ⟨more, rfl, ht, isDigits_cons hc hall, fun hhead => ?_⟩
        exact absurd (beq_iff_eq.mpr (Option.some.inj hhead)) hzero
      · exact absurd h fault_ne

theorem fraction_ok {places : List Char} (hs : s.At cs) (h : fraction s = .ok (places, t)) :
    ∃ more, cs = places ++ more ∧ places ≠ [] ∧ (∀ c ∈ places, Text.isDigit c = true) ∧
      t.At more := by
  obtain ⟨ds, u, hdigits, h⟩ := ok_of_bind h
  obtain ⟨more, rfl, hall, hu⟩ := digits_ok hs hdigits
  split at h
  next hne =>
    cases h
    refine ⟨more, rfl, ?_, hall, hu⟩
    rintro rfl
    cases hne
  · obtain ⟨c?, u', -, h⟩ := ok_of_bind h
    cases c? with
    | none => exact absurd h faultAhead_ne
    | some c => exact absurd h faultAhead_ne

theorem powerDigits_ok {power value : Nat} (hs : s.At cs)
    (h : powerDigits power s = .ok (value, t)) :
    ∃ ds more, cs = ds ++ more ∧ (∀ c ∈ ds, Text.isDigit c = true) ∧ t.At more := by
  revert cs
  refine loop_ok (motive := fun _ s => ∀ {cs}, s.At cs →
    ∃ ds more, cs = ds ++ more ∧ (∀ c ∈ ds, Text.isDigit c = true) ∧ t.At more) ?_ power s h
  intro before s after goOn u hstep hmore hend cs hs
  rw [peek?_bind] at hstep
  cases hhead : s.rest.head? with
  | none =>
    rw [hhead] at hstep
    cases hstep
    obtain ⟨-, rfl⟩ := hend (Or.inl rfl)
    exact ⟨[], cs, rfl, nofun, hs⟩
  | some c =>
    rw [hhead] at hstep
    dsimp only at hstep
    split at hstep
    next hc =>
      rw [skip_bind] at hstep
      obtain ⟨more, rfl, hnext⟩ := hs.of_head (isAscii_digit hc) hhead
      have hless := Cursor.next_left_lt hs.left hhead
      cases hstep
      by_cases hlimit : 10 * before + (c.toNat - '0'.toNat) < Nat.pow 2 31
      · obtain ⟨ds, more, rfl, hall, ht⟩ := hmore (decide_eq_true hlimit) hless hnext
        exact ⟨c :: ds, more, rfl, List.forall_mem_cons.mpr ⟨hc, hall⟩, ht⟩
      · obtain ⟨-, rfl⟩ := hend (Or.inl (decide_eq_false hlimit))
        exact ⟨[c], more, rfl, List.forall_mem_singleton.mpr hc, hnext⟩
    next hc =>
      cases hstep
      obtain ⟨-, rfl⟩ := hend (Or.inl rfl)
      exact ⟨[], cs, rfl, nofun, hs⟩

/-- After its letter, the sign and the digits of a power of ten are read. -/
theorem power_ok {zero : Bool} {value : Int} (hs : s.At cs) (h : power zero s = .ok (value, t)) :
    ∃ sign ds more, cs = sign ++ (ds ++ more) ∧ (sign = [] ∨ sign = ['+'] ∨ sign = ['-']) ∧
      Number.isDigits ds = true ∧ t.At more := by
  rw [power, peek?_bind] at h
  dsimp only at h
  rw [ite_skip_bind] at h
  obtain ⟨sign, cs', rfl, hsign, hs'⟩ : ∃ sign cs', cs = sign ++ cs' ∧
      (sign = [] ∨ sign = ['+'] ∨ sign = ['-']) ∧
      (if s.rest.head? = some '+' ∨ s.rest.head? = some '-' then s.next else s).At cs' := by
    split
    next hhead =>
      rcases hhead with hhead | hhead
      · obtain ⟨more, rfl, hnext⟩ := hs.of_head rfl hhead
        exact ⟨['+'], more, rfl, Or.inr (Or.inl rfl), hnext⟩
      · obtain ⟨more, rfl, hnext⟩ := hs.of_head rfl hhead
        exact ⟨['-'], more, rfl, Or.inr (Or.inr rfl), hnext⟩
    · exact ⟨[], cs, rfl, Or.inl rfl, hs⟩
  generalize (if s.rest.head? = some '+' ∨ s.rest.head? = some '-' then s.next else s) = s' at h hs'
  rw [next?_bind] at h
  cases hhead : s'.rest.head? with
  | none =>
    rw [hhead] at h
    exact absurd h fault_ne
  | some c =>
    rw [hhead] at h
    dsimp only at h
    split at h
    · exact absurd h fault_ne
    next hc =>
      have hdigit : Text.isDigit c = true := by
        simpa only [Bool.not_eq_true', Bool.not_eq_false] using hc
      obtain ⟨more, rfl, hnext⟩ := hs'.of_head (isAscii_digit hdigit) hhead
      obtain ⟨n, u, hpower, h⟩ := ok_of_bind h
      obtain ⟨ds, more, rfl, hall, hu⟩ := powerDigits_ok hnext hpower
      split at h
      · cases h
        exact ⟨sign, c :: ds, more, rfl, hsign, isDigits_cons hdigit hall, hu⟩
      · split at h
        · exact absurd h fault_ne
        · obtain ⟨ds', u', hdigits, h⟩ := ok_of_bind h
          cases h
          obtain ⟨more, rfl, hall', ht⟩ := digits_ok hu hdigits
          refine ⟨sign, c :: (ds ++ ds'), more, ?_, hsign, isDigits_cons hdigit ?_, ht⟩
          · rw [List.cons_append, List.append_assoc]
          · exact List.forall_mem_append.mpr ⟨hall, hall'⟩

/-- The end of a number is read: perhaps a power of ten. -/
theorem numberEnd_ok {significand : Nat} {shift : Int} (hs : s.At cs)
    (h : (do
      let letter ← peek?
      let exponent ←
        if letter = some 'e' ∨ letter = some 'E' then do
          skip
          power (significand == 0)
        else pure 0
      if overflows significand (shift + exponent) then fault .numberRange : Read Unit) s =
        .ok ((), t)) :
    ∃ (power? : Option Power) (more : List Char),
      cs = (power?.map (·.spelling)).getD [] ++ more ∧ t.At more := by
  rw [peek?_bind] at h
  dsimp only at h
  split at h
  next hhead =>
    rw [skip_bind] at h
    obtain ⟨exponent, u, hpower, h⟩ := ok_of_bind h
    obtain ⟨letter, more, hletter, rfl, hnext⟩ : ∃ letter more, (letter = 'e' ∨ letter = 'E') ∧
        cs = letter :: more ∧ s.next.At more := by
      rcases hhead with hhead | hhead
      · obtain ⟨more, rfl, hnext⟩ := hs.of_head rfl hhead
        exact ⟨'e', more, Or.inl rfl, rfl, hnext⟩
      · obtain ⟨more, rfl, hnext⟩ := hs.of_head rfl hhead
        exact ⟨'E', more, Or.inr rfl, rfl, hnext⟩
    obtain ⟨sign, ds, more, rfl, hsign, hdigits, hu⟩ := power_ok hnext hpower
    split at h
    · exact absurd h fault_ne
    · cases h
      refine ⟨some ⟨letter, sign, ds, hletter, hsign, hdigits⟩, more, ?_, hu⟩
      change _ = letter :: sign ++ ds ++ more
      rw [List.append_assoc, List.cons_append]
  · obtain ⟨exponent, u, hpure, h⟩ := ok_of_bind h
    cases hpure
    split at h
    · exact absurd h fault_ne
    · cases h
      exact ⟨none, cs, rfl, hs⟩

/-- After its sign, the rest of a number is read. -/
theorem number_ok (negative : Bool) (hs : s.At cs) (h : number s = .ok ((), t)) :
    ∃ (numeral : Numeral) (more : List Char), numeral.negative = negative ∧
      cs = numeral.whole ++ (numeral.fraction ++ (numeral.power ++ more)) ∧ t.At more := by
  obtain ⟨whole, u₁, hwhole, h⟩ := ok_of_bind h
  obtain ⟨more, rfl, hu₁, hdigits, hnought⟩ := whole_ok hs hwhole
  dsimp only at h
  rw [peek?_bind] at h
  split at h
  next hhead =>
    obtain ⟨more, rfl, hnext⟩ := hu₁.of_head rfl hhead
    rw [skip_bind] at h
    obtain ⟨places, u₂, hfraction, h⟩ := ok_of_bind h
    obtain ⟨more, rfl, hne, hplaces, hu₂⟩ := fraction_ok hnext hfraction
    obtain ⟨power?, more, rfl, ht⟩ := numberEnd_ok hu₂ h
    let numeral : Numeral :=
      ⟨negative, whole, places, power?, hdigits, hnought, List.all_eq_true.mpr hplaces⟩
    have hpoint : numeral.fraction = '.' :: places :=
      if_neg fun h => hne (List.isEmpty_iff.mp h)
    refine ⟨numeral, more, rfl, ?_, ht⟩
    rw [hpoint, List.cons_append]
    rfl
  · obtain ⟨power?, more, rfl, ht⟩ := numberEnd_ok hu₁ h
    exact ⟨⟨negative, whole, [], power?, hdigits, hnought, rfl⟩, more, rfl, rfl, ht⟩

end Read
end Json
end TypedConfig
