/-
# Scanning a JSON document

By recursion on a value, the scanner finds the tokens of the value wherever it stands
in a document, and so all tokens of the document (`ofText_document`). There are no
more of them than characters, so the scanner is never stopped before the end.

Key theorems: `finishes_value`, `length_tokens_le`, `ofText_document`.
-/
import TypedConfig.Proofs.Json.Tokens
import TypedConfig.Proofs.Json.Numeral

namespace TypedConfig
namespace Json

open Yaml Yaml.Scan

variable {p : Progress} {ws tail : List Char} {kinds : List TokenKind}

theorem Layout.isLayout (layout : Layout) : ∀ c ∈ layout.text, isLayout c = true := by
  intro c hc
  rcases layout.blank c hc with rfl | rfl | rfl | rfl <;> rfl

theorem isPlain_word {w : List Char}
    (h : w = "null".toList ∨ w = "true".toList ∨ w = "false".toList) : IsPlain w := by
  rcases h with rfl | rfl | rfl
  all_goals exact ⟨forall_mem_of_all (by decide), by decide, by decide⟩

/-- What a value begins with. -/
theorem Syntax.exists_start (value : Syntax) : ∃ c cs, value.spelling = c :: cs ∧
    (value.isBare = true → isWordChar c = true) ∧
      (value.isBare = false → c ∈ ['"', '[', '\x7b']) := by
  cases value with
  | null => exact ⟨'n', _, rfl, fun _ => rfl, fun h => absurd h (by decide)⟩
  | boolean value =>
    cases value
    · exact ⟨'f', _, rfl, fun _ => rfl, fun h => absurd h (by decide)⟩
    · exact ⟨'t', _, rfl, fun _ => rfl, fun h => absurd h (by decide)⟩
  | number numeral =>
    have hstart := numeral.isPlain.start
    rw [Syntax.spelling]
    cases hs : numeral.spelling with
    | nil =>
      rw [hs] at hstart
      exact absurd hstart (by decide)
    | cons c cs =>
      rw [hs] at hstart
      exact ⟨c, cs, rfl, fun _ => hstart, fun h => absurd h Bool.noConfusion⟩
  | string pieces =>
    exact ⟨'"', _, rfl, fun h => absurd h Bool.noConfusion, fun _ => List.mem_cons_self⟩
  | array inside elements =>
    exact ⟨'[', _, rfl, fun h => absurd h Bool.noConfusion, fun _ => by decide⟩
  | object inside members =>
    exact ⟨'\x7b', _, rfl, fun h => absurd h Bool.noConfusion, fun _ => by decide⟩

theorem Syntax.atToken (value : Syntax) : AtToken (value.spelling ++ tail) := by
  obtain ⟨c, cs, hs, hbare, hother⟩ := value.exists_start
  rw [hs]
  cases hb : value.isBare with
  | true =>
    have hne : ∀ d : Char, isWordChar d = false → c ≠ d := fun d hd he =>
      Bool.false_ne_true (hd.symm.trans (he ▸ hbare hb))
    refine ⟨?_, hne '#' rfl⟩
    change Scan.isLayout c = false
    rw [Scan.isLayout, isBlank, isBreak, beq_eq_false_iff_ne.mpr (hne ' ' rfl),
      beq_eq_false_iff_ne.mpr (hne '\t' rfl), beq_eq_false_iff_ne.mpr (hne '\n' rfl),
      beq_eq_false_iff_ne.mpr (hne '\r' rfl)]
    rfl
  | false =>
    have hfacts : ∀ c ∈ ['"', '[', '\x7b'], Scan.isLayout c = false ∧ c ≠ '#' :=
      forall_mem_of_all (by decide)
    exact ⟨(hfacts c (hother hb)).1, (hfacts c (hother hb)).2⟩

theorem Member.isWideGap {member : Member Syntax} (h : ¬member.HasTabGap) :
    IsWideGap member.afterColon.text (member.value.spelling ++ tail) := by
  intro hne htabs
  obtain ⟨c, cs, hs, hbare, hother⟩ := member.value.exists_start
  rw [hs]
  cases hb : member.value.isBare with
  | true =>
    have hall : member.afterColon.text.all (· == '\t') = true :=
      List.all_eq_true.mpr fun c hc => beq_iff_eq.mpr (htabs c hc)
    exact absurd ⟨hne, hall, hb⟩ h
  | false =>
    have hfacts : ∀ c ∈ ['"', '[', '\x7b'], isWordChar c = false :=
      forall_mem_of_all (by decide)
    exact hfacts c (hother hb)

/-! ### The run of the scanner -/

theorem endsPlain_mark {level : Nat} {c : Char} {cs : List Char} (hlevel : 0 < level)
    (hc : c = ',' ∨ c = ']' ∨ c = '\x7d') : EndsPlain level (c :: cs) := by
  rcases hc with rfl | rfl | rfl
  · exact ⟨Or.inr ⟨hlevel, Or.inl rfl⟩, (by decide : ',' ≠ ':')⟩
  · exact ⟨Or.inr ⟨hlevel, Or.inr (Or.inl rfl)⟩, (by decide : ']' ≠ ':')⟩
  · exact ⟨Or.inr ⟨hlevel, Or.inr (Or.inr (Or.inl rfl))⟩, (by decide : '\x7d' ≠ ':')⟩

theorem endsPlain_elements {level : Nat} (hlevel : 0 < level) (elements : List (Padded Syntax)) :
    EndsPlain level (Syntax.elementsSpelling false elements ++ ']' :: tail) := by
  cases elements with
  | nil => exact endsPlain_mark hlevel (Or.inr (Or.inl rfl))
  | cons element elements => exact endsPlain_mark hlevel (Or.inl rfl)

theorem endsPlain_members {level : Nat} (hlevel : 0 < level)
    (members : List (Padded (Member Syntax))) :
    EndsPlain level (Syntax.membersSpelling false members ++ '\x7d' :: tail) := by
  cases members with
  | nil => exact endsPlain_mark hlevel (Or.inr (Or.inr rfl))
  | cons member members => exact endsPlain_mark hlevel (Or.inl rfl)

theorem isLayout_append {ws' : List Char} (hws : ∀ c ∈ ws, isLayout c = true)
    (hws' : ∀ c ∈ ws', isLayout c = true) : ∀ c ∈ ws ++ ws', isLayout c = true := fun c hc =>
  (List.mem_append.mp hc).elim (hws c) (hws' c)

mutual

/-- A value is found token by token. -/
theorem finishes_value : ∀ (value : Syntax) {p : Progress} {ws tail : List Char},
    (∀ part ∈ value.parts, part.Readable) → p.level + value.depth ≤ flowLimit →
    (∀ c ∈ ws, isLayout c = true) → EndsPlain p.level tail →
    FinishesFrom kinds { p with kinds := p.kinds ++ value.tokens, allowed := false } tail →
    FinishesFrom kinds p (value.spelling ++ (ws ++ tail))
  | .null, p, ws, tail, _, _, hws, hend, hrest =>
    .plain (isPlain_word (Or.inl rfl)) hws hend hrest
  | .boolean true, p, ws, tail, _, _, hws, hend, hrest =>
    .plain (isPlain_word (Or.inr (Or.inl rfl))) hws hend hrest
  | .boolean false, p, ws, tail, _, _, hws, hend, hrest =>
    .plain (isPlain_word (Or.inr (Or.inr rfl))) hws hend hrest
  | .number numeral, p, ws, tail, _, _, hws, hend, hrest =>
    .plain numeral.isPlain hws hend hrest
  | .string pieces, p, ws, tail, hr, _, hws, hend, hrest =>
    .quoted (hr _ List.mem_cons_self) hws hend.ends hrest
  | .array inside elements, p, ws, tail, hr, hdepth, hws, hend, hrest => by
    have hr' : ∀ part ∈ Syntax.elementParts elements, part.Readable := fun part hp =>
      hr part (List.mem_cons_of_mem _ hp)
    rw [Syntax.depth] at hdepth
    -- after the last element, the bracket is read
    have hclose : FinishesFrom kinds
        { p with
          level := p.level + 1
          kinds := p.kinds ++ [.flowSequenceStart] ++ Syntax.elementsTokens true elements
          allowed := false } (']' :: (ws ++ tail)) := by
      refine .flowEnd .flowSequenceEnd (by simp [structureTokens]) (by decide) hws
        hend.ends.atToken (Nat.succ_pos _) ?_
      simp only [Progress.found, Nat.add_sub_cancel, List.append_assoc, List.singleton_append]
      exact hrest
    cases elements with
    | nil =>
      have hspell : (Syntax.array inside []).spelling ++ (ws ++ tail) =
          '[' :: (inside.text ++ ']' :: (ws ++ tail)) := by
        simp [Syntax.spelling, Syntax.elementsSpelling]
      rw [hspell]
      refine .flowStart .flowSequenceStart (by simp [structureTokens]) (by decide)
        inside.isLayout (endsPlain_mark (Nat.succ_pos 0) (Or.inr (Or.inl rfl))).ends.atToken
        (by omega) (.weaken ?_)
      simpa [Progress.found, Syntax.elementsTokens] using hclose
    | cons padded elements =>
      obtain ⟨before, element, after⟩ := padded
      have hspell : (Syntax.array inside (⟨before, element, after⟩ :: elements)).spelling ++
          (ws ++ tail) = '[' :: (inside.text ++ before.text ++ (element.spelling ++ (after.text ++
            (Syntax.elementsSpelling false elements ++ ']' :: (ws ++ tail))))) := by
        simp [Syntax.spelling, Syntax.elementsSpelling, Syntax.separator]
      rw [Syntax.elementsDepth] at hdepth
      rw [hspell]
      refine .flowStart .flowSequenceStart (by simp [structureTokens]) (by decide)
        (isLayout_append inside.isLayout before.isLayout) element.atToken (by omega) ?_
      refine finishes_value element (fun part hp => hr' part (List.mem_append_left _ hp))
        (by change p.level + 1 + _ ≤ _; omega) after.isLayout
        (endsPlain_elements (Nat.succ_pos _) elements) ?_
      refine finishes_elements elements (fun part hp => hr' part (List.mem_append_right _ hp))
        (Nat.succ_pos _) (by change p.level + 1 + _ ≤ _; omega) ?_
      simpa [Progress.found, Syntax.elementsTokens] using hclose
  | .object inside members, p, ws, tail, hr, hdepth, hws, hend, hrest => by
    have hr' : ∀ part ∈ Syntax.memberParts members, part.Readable := fun part hp =>
      hr part (List.mem_cons_of_mem _ hp)
    have hkeys : ∀ member ∈ members,
        HasNoSurrogates member.item.key ∧ ¬member.item.HasTabGap := hr _ List.mem_cons_self
    rw [Syntax.depth] at hdepth
    -- after the last member, the brace is read
    have hclose : FinishesFrom kinds
        { p with
          level := p.level + 1
          mapping := true
          kinds := p.kinds ++ [.flowMappingStart] ++ Syntax.membersTokens true members
          allowed := false } ('\x7d' :: (ws ++ tail)) := by
      refine .flowEnd .flowMappingEnd (by simp [structureTokens]) (by decide) hws
        hend.ends.atToken (Nat.succ_pos _) ?_
      simpa [Progress.found, Syntax.tokens] using hrest.of_mapping
    cases members with
    | nil =>
      have hspell : (Syntax.object inside []).spelling ++ (ws ++ tail) =
          '\x7b' :: (inside.text ++ '\x7d' :: (ws ++ tail)) := by
        simp [Syntax.spelling, Syntax.membersSpelling]
      rw [hspell]
      refine .flowStart .flowMappingStart (by simp [structureTokens]) (by decide)
        inside.isLayout (endsPlain_mark (Nat.succ_pos 0) (Or.inr (Or.inr rfl))).ends.atToken
        (by omega) (.weaken ?_)
      simpa [Progress.found, Syntax.membersTokens] using hclose
    | cons padded members =>
      obtain ⟨before, ⟨key, beforeColon, afterColon, value⟩, after⟩ := padded
      have hspell : (Syntax.object inside
            (⟨before, ⟨key, beforeColon, afterColon, value⟩, after⟩ :: members)).spelling ++
          (ws ++ tail) = '\x7b' :: (inside.text ++ before.text ++ (stringSpelling key ++
            (beforeColon.text ++ ':' :: (afterColon.text ++ (value.spelling ++ (after.text ++
              (Syntax.membersSpelling false members ++ '\x7d' :: (ws ++ tail)))))))) := by
        simp [Syntax.spelling, Syntax.membersSpelling, Syntax.separator]
      obtain ⟨hkey, hgap⟩ := hkeys _ List.mem_cons_self
      rw [Syntax.membersDepth] at hdepth
      rw [hspell]
      refine .flowStart .flowMappingStart (by simp [structureTokens]) (by decide)
        (isLayout_append inside.isLayout before.isLayout) ⟨rfl, (by decide : '"' ≠ '#')⟩
        (by omega) ?_
      refine .key hkey beforeColon.isLayout afterColon.isLayout value.atToken
        (Member.isWideGap hgap) (Nat.succ_pos _) (Bool.or_true _) rfl ?_
      refine finishes_value value (fun part hp => hr' part (List.mem_append_left _ hp))
        (by change p.level + 1 + _ ≤ _; omega) after.isLayout
        (endsPlain_members (Nat.succ_pos _) members) ?_
      refine finishes_members members (fun part hp => hr' part (List.mem_append_right _ hp))
        (fun member hm => hkeys member (List.mem_cons_of_mem _ hm)) (Nat.succ_pos _)
        (Bool.or_true _) (by change p.level + 1 + _ ≤ _; omega) ?_
      simpa [Progress.found, Syntax.membersTokens] using hclose

/-- Elements are found after a comma each. -/
theorem finishes_elements : ∀ (elements : List (Padded Syntax)) {p : Progress} {tail : List Char},
    (∀ part ∈ Syntax.elementParts elements, part.Readable) → 0 < p.level →
    p.level + Syntax.elementsDepth elements ≤ flowLimit →
    FinishesFrom kinds
      { p with kinds := p.kinds ++ Syntax.elementsTokens false elements, allowed := false }
      (']' :: tail) →
    FinishesFrom kinds p (Syntax.elementsSpelling false elements ++ ']' :: tail)
  | [], p, tail, _, _, _, hrest => by
    refine .weaken ?_
    simp only [Syntax.elementsTokens, List.append_nil] at hrest
    exact hrest
  | ⟨before, element, after⟩ :: elements, p, tail, hr, hlevel, hdepth, hrest => by
    have hspell : Syntax.elementsSpelling false (⟨before, element, after⟩ :: elements) ++
        ']' :: tail = ',' :: (before.text ++ (element.spelling ++ (after.text ++
          (Syntax.elementsSpelling false elements ++ ']' :: tail)))) := by
      simp [Syntax.elementsSpelling, Syntax.separator]
    rw [Syntax.elementsDepth] at hdepth
    rw [hspell]
    refine .flowEntry before.isLayout element.atToken ?_
    refine finishes_value element (fun part hp => hr part (List.mem_append_left _ hp))
      (by change p.level + _ ≤ _; omega) after.isLayout (endsPlain_elements hlevel elements) ?_
    refine finishes_elements elements (fun part hp => hr part (List.mem_append_right _ hp)) hlevel
      (by change p.level + _ ≤ _; omega) ?_
    simpa [Progress.found, Syntax.elementsTokens] using hrest

/-- Members are found after a comma each. -/
theorem finishes_members : ∀ (members : List (Padded (Member Syntax))) {p : Progress}
    {tail : List Char}, (∀ part ∈ Syntax.memberParts members, part.Readable) →
    (∀ member ∈ members, HasNoSurrogates member.item.key ∧ ¬member.item.HasTabGap) →
    0 < p.level → p.mapping = true → p.level + Syntax.membersDepth members ≤ flowLimit →
    FinishesFrom kinds
      { p with kinds := p.kinds ++ Syntax.membersTokens false members, allowed := false }
      ('\x7d' :: tail) →
    FinishesFrom kinds p (Syntax.membersSpelling false members ++ '\x7d' :: tail)
  | [], p, tail, _, _, _, _, _, hrest => by
    refine .weaken ?_
    simp only [Syntax.membersTokens, List.append_nil] at hrest
    exact hrest
  | ⟨before, ⟨key, beforeColon, afterColon, value⟩, after⟩ :: members, p, tail, hr, hkeys, hlevel,
      hmapping, hdepth, hrest => by
    have hspell : Syntax.membersSpelling false
          (⟨before, ⟨key, beforeColon, afterColon, value⟩, after⟩ :: members) ++ '\x7d' :: tail =
        ',' :: (before.text ++ (stringSpelling key ++ (beforeColon.text ++ ':' ::
          (afterColon.text ++ (value.spelling ++ (after.text ++
            (Syntax.membersSpelling false members ++ '\x7d' :: tail))))))) := by
      simp [Syntax.membersSpelling, Syntax.separator]
    obtain ⟨hkey, hgap⟩ := hkeys _ List.mem_cons_self
    rw [Syntax.membersDepth] at hdepth
    rw [hspell]
    refine .flowEntry before.isLayout ⟨rfl, (by decide : '"' ≠ '#')⟩ ?_
    refine .key hkey beforeColon.isLayout afterColon.isLayout value.atToken
      (Member.isWideGap hgap) hlevel hmapping rfl ?_
    refine finishes_value value (fun part hp => hr part (List.mem_append_left _ hp))
      (by change p.level + _ ≤ _; omega) after.isLayout (endsPlain_members hlevel members) ?_
    refine finishes_members members (fun part hp => hr part (List.mem_append_right _ hp))
      (fun member hm => hkeys member (List.mem_cons_of_mem _ hm)) hlevel hmapping
      (by change p.level + _ ≤ _; omega) ?_
    simpa [Progress.found, Syntax.membersTokens] using hrest

end

/-! ### The tokens of a document -/

mutual

/-- No value has more tokens than characters. -/
theorem length_tokens_le : ∀ value : Syntax, value.tokens.length ≤ value.spelling.length
  | .null => by decide
  | .boolean true => by decide
  | .boolean false => by decide
  | .number numeral => by
    obtain ⟨c, cs, hs, -⟩ := (Syntax.number numeral).exists_start
    rw [hs]
    exact Nat.succ_le_succ (Nat.zero_le _)
  | .string pieces => Nat.succ_le_succ (Nat.zero_le _)
  | .array inside elements => by
    have ih := length_elementsTokens_le true elements
    simp only [Syntax.tokens, Syntax.spelling, List.length_cons, List.length_append]
    omega
  | .object inside members => by
    have ih := length_membersTokens_le true members
    simp only [Syntax.tokens, Syntax.spelling, List.length_cons, List.length_append]
    omega

theorem length_elementsTokens_le (first : Bool) : ∀ elements : List (Padded Syntax),
    (Syntax.elementsTokens first elements).length ≤
      (Syntax.elementsSpelling first elements).length
  | [] => Nat.le_refl _
  | ⟨before, element, after⟩ :: elements => by
    have ih := length_tokens_le element
    have ihs := length_elementsTokens_le false elements
    cases first <;>
    · simp only [Syntax.elementsTokens, Syntax.elementsSpelling, Syntax.separator,
        List.length_append, List.length_cons, List.length_nil, Bool.false_eq_true, if_false,
        if_true]
      omega

theorem length_membersTokens_le (first : Bool) : ∀ members : List (Padded (Member Syntax)),
    (Syntax.membersTokens first members).length ≤ (Syntax.membersSpelling first members).length
  | [] => Nat.le_refl _
  | ⟨before, ⟨key, beforeColon, afterColon, value⟩, after⟩ :: members => by
    have ih := length_tokens_le value
    have ihs := length_membersTokens_le false members
    cases first <;>
    · simp only [Syntax.membersTokens, Syntax.membersSpelling, Syntax.separator, stringSpelling,
        List.length_append, List.length_cons, List.length_nil, Bool.false_eq_true, if_false,
        if_true]
      omega

end

/-- The scanner of YAML finds the tokens of a JSON document, and no fault. -/
theorem ofText_document (document : Document) (hr : ∀ part ∈ document.item.parts, part.Readable)
    (hdepth : document.item.depth ≤ flowLimit) :
    ∃ tokens, TokenStream.ofText document.text = ⟨tokens, none⟩ ∧
      tokens.map (·.kind) = .streamStart :: (document.item.tokens ++ [.streamEnd]) := by
  obtain ⟨before, value, after⟩ := document
  change value.depth ≤ flowLimit at hdepth
  let kinds : List TokenKind := .streamStart :: (value.tokens ++ [.streamEnd])
  let text := before.text ++ (value.spelling ++ after.text)
  have hvalue : FinishesFrom kinds ⟨[.streamStart], 0, 0, false, true⟩
      (value.spelling ++ (after.text ++ [])) := by
    refine finishes_value value hr (by change 0 + _ ≤ _; omega) after.isLayout
      ⟨Or.inl rfl, (by decide : '\x00' ≠ ':')⟩ (.finish ?_)
    simp [kinds]
  rw [List.append_nil] at hvalue
  have hfinishes : Finishes kinds (text.length + 3) (.start text) := by
    have hlen : (value.spelling ++ after.text).length + 1 < text.length + 3 := by
      simp only [text, List.length_append]
      omega
    refine .step hlen (by simp [ScanState.start]) (fun key hk => absurd hk List.not_mem_nil)
      (fun t ht => ?_) fun t u ht hu => ?_
    · obtain ⟨u, hu, hat⟩ := nextToken_start text ht
      have hcount : t.count = 0 := by
        obtain ⟨⟨m, keys, rfl⟩, -⟩ := ht
        rfl
      refine ⟨u, hu, hat.handedOut, ?_⟩
      rw [hat.count_eq, hcount]
      exact Nat.zero_lt_one
    · obtain ⟨u', hu', hat⟩ := nextToken_start text ht
      rw [hu] at hu'
      cases hu'
      exact hvalue (by simp) t.handedOut u ⟨before.text, before.isLayout, hat⟩
  have hbound : kinds.length < 4 * (text.length + 3) := by
    have hle := length_tokens_le value
    simp only [kinds, text, List.length_cons, List.length_append, List.length_nil]
    omega
  have htext : (Document.text ⟨before, value, after⟩).toList = text := String.toList_ofList
  rw [TokenStream.ofText, ← String.length_toList, htext]
  exact hfinishes.tokensFrom _ (Nat.le_refl _) (Nat.zero_le _) rfl hbound

end Json
end TypedConfig
