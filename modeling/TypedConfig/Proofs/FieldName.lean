/-
# Fields are told apart by their keys

A name in snake case is made of words of small letters and digits, joined by single
underscores (`SnakeCase`). It is looked for as it is, in camel case and in kebab case, and
each of these keys leads back to the name: the kebab case of the key is that of the name
(`kebabCase_spelling`), and this differs from the name in its dashes alone
(`eq_of_kebabCase_eq`). So no key belongs to two names, and two fields are never found in
the same entry (`Context.fields_apart`).

Spelling any text anew in camel case or in kebab case changes nothing more. In camel case no
mark between words is left (`no_separator_camelFrom`); in kebab case a capital that has no
small letter keeps its dash in front, and what is changed to small letters stays so
(`kebabFrom_lower`).

Key definitions: `Word`, `SnakeCase`, `spellings`, `Context.fieldKey?`.
Key theorems: `camelCase_camelCase`, `kebabCase_kebabCase`, `kebabCase_camelCase`,
`spelling_ne`, `Context.fields_apart`.
-/
import TypedConfig.Loader
import TypedConfig.Proofs.LetterCase

namespace TypedConfig
namespace FieldName

variable {c : Char} {cs w : List Char} {ws : List (List Char)} {name x y : String}

/-! ### Names in snake case -/

/-- Whether `c` is a small letter of ASCII. -/
def isSmall (c : Char) : Bool := 'a' ≤ c && c ≤ 'z'

/-- Whether `c` may stand in a word. -/
def isPlain (c : Char) : Bool := isSmall c || Text.isDigit c

/-- A small letter, and behind it small letters and digits. -/
def Word : List Char → Prop
  | [] => False
  | c :: cs => isSmall c = true ∧ ∀ d ∈ cs, isPlain d = true

/-- One or more words joined by single underscores. -/
def SnakeCase (name : String) : Prop :=
  ∃ words, words ≠ [] ∧ (∀ w ∈ words, Word w) ∧ name.toList = ['_'].intercalate words

theorem isSmall_iff : isSmall c = true ↔ 97 ≤ c.toNat ∧ c.toNat ≤ 122 := by
  simp only [isSmall, Bool.and_eq_true, decide_eq_true_eq, Char.le_def, UInt32.le_iff_toNat_le]
  exact Iff.rfl

theorem isPlain_iff : isPlain c = true ↔
    97 ≤ c.toNat ∧ c.toNat ≤ 122 ∨ 48 ≤ c.toNat ∧ c.toNat ≤ 57 := by
  simp only [isPlain, Bool.or_eq_true, isSmall_iff, Text.isDigit, Bool.and_eq_true,
    decide_eq_true_eq, Char.le_def, UInt32.le_iff_toNat_le]
  exact Iff.rfl

theorem isPlain_of_isSmall (h : isSmall c = true) : isPlain c = true := by simp [isPlain, h]

/-- A character of a word is no capital and no mark between words. -/
theorem plain_facts (hc : isPlain c = true) :
    Text.isUppercase c = false ∧ c ≠ '_' ∧ isSeparator c = false ∧ c ≠ '-' := by
  have hrange := isPlain_iff.mp hc
  have hup : Text.isUppercase c = false := by
    rw [← Bool.not_eq_true, Text.isUppercase_ascii_iff (by omega)]
    omega
  have hlow : c ≠ '_' := by
    rintro rfl
    cases hc
  have hdash : c ≠ '-' := by
    rintro rfl
    cases hc
  exact ⟨hup, hlow, by simp [isSeparator, hlow, hdash], hdash⟩

/-- The marks between words are no capitals. -/
theorem isUppercase_separator (hc : isSeparator c = true) : Text.isUppercase c = false := by
  have hmark : c = '_' ∨ c = '-' := by simpa [isSeparator] using hc
  rw [← Bool.not_eq_true]
  rcases hmark with rfl | rfl
  · rw [Text.isUppercase_ascii_iff (by decide)]
    decide
  · rw [Text.isUppercase_ascii_iff (by decide)]
    decide

/-- The capital of a small letter. -/
def capital (c : Char) : Char := Char.ofNat (c.toNat - 32)

theorem capital_facts (hc : isSmall c = true) :
    Text.upper c = [capital c] ∧ capital c ≠ '_' ∧ Text.isUppercase (capital c) = true ∧
      Text.lower (capital c) = [c] := by
  obtain ⟨hlo, hhi⟩ := isSmall_iff.mp hc
  obtain ⟨hupper, hlower⟩ := Text.upper_lower_ascii hlo hhi
  have hvalue : (capital c).toNat = c.toNat - 32 :=
    Text.toNat_ofNat_of_valid (Or.inl (by omega))
  have hlow : capital c ≠ '_' := by
    intro he
    have hmark : c.toNat - 32 = 95 := by rw [← hvalue, he]; rfl
    omega
  have hcapital : Text.isUppercase (capital c) = true := by
    rw [Text.isUppercase_ascii_iff (by omega)]
    omega
  exact ⟨hupper, hlow, hcapital, hlower⟩

theorem Word.plain (h : Word w) : ∀ c ∈ w, isPlain c = true := by
  cases w with
  | nil => exact h.elim
  | cons c cs => exact List.forall_mem_cons.mpr ⟨isPlain_of_isSmall h.1, h.2⟩

/-- Behind the first word every other one follows a mark. -/
theorem intercalate_cons (mark : Char) (w : List Char) : ∀ ws : List (List Char),
    [mark].intercalate (w :: ws) = w ++ ws.flatMap (mark :: ·)
  | [] => by simp
  | v :: ws => by
    rw [List.intercalate_cons_cons, intercalate_cons mark v ws, List.flatMap_cons]
    simp

/-- A name in snake case begins with a word, and an underscore is in front of every other. -/
theorem SnakeCase.exists_words (h : SnakeCase name) :
    ∃ (w : List Char) (ws : List (List Char)), Word w ∧ (∀ v ∈ ws, Word v) ∧
      name.toList = w ++ ws.flatMap ('_' :: ·) := by
  obtain ⟨words, hne, hwords, hname⟩ := h
  obtain ⟨w, ws, rfl⟩ := List.exists_cons_of_ne_nil hne
  rw [intercalate_cons] at hname
  exact ⟨w, ws, hwords w List.mem_cons_self, fun v hv => hwords v (List.mem_cons_of_mem w hv),
    hname⟩

theorem SnakeCase.plain_or_underscore (h : SnakeCase name) :
    ∀ c ∈ name.toList, isPlain c = true ∨ c = '_' := by
  obtain ⟨w, ws, hw, hws, hname⟩ := h.exists_words
  intro c hc
  rw [hname, List.mem_append, List.mem_flatMap] at hc
  rcases hc with hc | ⟨v, hv, hc⟩
  · exact Or.inl (hw.plain c hc)
  · rcases List.mem_cons.mp hc with rfl | hc
    · exact Or.inr rfl
    · exact Or.inl ((hws v hv).plain c hc)

/-! ### Camel case -/

/-- Text without marks between words is kept. -/
theorem camelFrom_append (rest : List Char) : ∀ (cs : List Char) (started : Bool),
    (∀ c ∈ cs, isSeparator c = false) →
      camelFrom started false (cs ++ rest) = cs ++ camelFrom (started || !cs.isEmpty) false rest
  | [], started, _ => by simp
  | c :: cs, started, h => by
    rw [List.forall_mem_cons] at h
    have ih := camelFrom_append rest cs true h.2
    simp [camelFrom, h.1, ih]

/-- No mark between words is left in camel case. -/
theorem no_separator_camelFrom : ∀ (cs : List Char) (started capital : Bool),
    ∀ d ∈ camelFrom started capital cs, isSeparator d = false
  | [], _, _, d, hd => by simp [camelFrom] at hd
  | c :: cs, started, capital, d, hd => by
    have ih := no_separator_camelFrom cs
    unfold camelFrom at hd
    by_cases hc : isSeparator c = true
    · rw [if_pos hc] at hd
      exact ih started started d hd
    · rw [if_neg hc] at hd
      have hmark : c ≠ '_' ∧ c ≠ '-' := by simpa [isSeparator] using hc
      cases capital with
      | false =>
        rcases List.mem_cons.mp hd with rfl | hd
        · exact Bool.not_eq_true _ ▸ hc
        · exact ih true false d hd
      | true =>
        rcases List.mem_append.mp hd with hd | hd
        · obtain ⟨hlow, hdash⟩ := Text.upper_no_mark hmark.1 hmark.2
          have hne : d ≠ '_' ∧ d ≠ '-' := ⟨fun h => hlow (h ▸ hd), fun h => hdash (h ▸ hd)⟩
          simp [isSeparator, hne.1, hne.2]
        · exact ih true false d hd

theorem camelCase_camelCase (name : String) : camelCase (camelCase name) = camelCase name := by
  have h := camelFrom_append [] (camelFrom false false name.toList) false
    (no_separator_camelFrom name.toList false false)
  rw [camelCase, camelCase, String.toList_ofList]
  simpa [camelFrom] using congrArg String.ofList h

/-- A word with its first letter as a capital. -/
def capitalized : List Char → List Char
  | [] => []
  | c :: cs => capital c :: cs

/-- An underscore and the word behind it become the word with a capital. -/
theorem camelFrom_words : ∀ {ws : List (List Char)}, (∀ w ∈ ws, Word w) →
    camelFrom true false (ws.flatMap ('_' :: ·)) = ws.flatMap capitalized
  | [], _ => rfl
  | [] :: _, h => (h [] List.mem_cons_self).elim
  | (c :: cs) :: ws, h => by
    rw [List.forall_mem_cons] at h
    obtain ⟨hc, hcs⟩ := h.1
    have hmark : isSeparator '_' = true := rfl
    have hplain : isSeparator c = false := (plain_facts (isPlain_of_isSmall hc)).2.2.1
    have hword := camelFrom_append (ws.flatMap ('_' :: ·)) cs true
      fun d hd => (plain_facts (hcs d hd)).2.2.1
    rw [Bool.true_or, camelFrom_words h.2] at hword
    simp [camelFrom, hmark, hplain, hword, (capital_facts hc).1, capitalized]

/-- In camel case the first word is followed by the others with capitals. -/
theorem toList_camelCase (hw : Word w) (hws : ∀ v ∈ ws, Word v)
    (hname : name.toList = w ++ ws.flatMap ('_' :: ·)) :
    (camelCase name).toList = w ++ ws.flatMap capitalized := by
  have hfirst := camelFrom_append (ws.flatMap ('_' :: ·)) w false
    fun c hc => (plain_facts (hw.plain c hc)).2.2.1
  have hne : w.isEmpty = false := by
    cases w with
    | nil => exact hw.elim
    | cons c cs => rfl
  rw [camelCase, String.toList_ofList, hname, hfirst, hne]
  exact congrArg (w ++ ·) (camelFrom_words hws)

/-! ### Kebab case -/

theorem kebabFrom_dash (needsDash : Bool) (cs : List Char) :
    kebabFrom needsDash ('-' :: cs) = '-' :: kebabFrom false cs := by
  simp [kebabFrom, isUppercase_separator (c := '-') rfl]

/-- What a letter was changed to in kebab case is not changed again where no dash is due. -/
theorem kebabFrom_lower (hc : c ≠ '_') (rest : List Char) :
    kebabFrom false (Text.lower c ++ rest) =
      Text.lower c ++ kebabFrom ((Text.lower c).getLast? != some '-') rest := by
  rcases Text.lower_settled c with h | ⟨d, h, hd⟩
  · have hi : Text.isUppercase 'i' = false := (plain_facts rfl).1
    have hmark : (some '\u0307' != some '-') = true := rfl
    rw [h]
    simp [kebabFrom, hi, Text.caseless.2, hmark]
  · have hlow : d ≠ '_' := by
      rintro rfl
      exact Text.lower_no_underscore hc (h ▸ List.mem_singleton_self _)
    rw [h]
    by_cases hup : Text.isUppercase d = true
    · simp [kebabFrom, hlow, hup, hd]
    · have hlast : (some d != some '-') = (d != '-') := rfl
      simp [kebabFrom, hlow, hup, hlast]

theorem kebabFrom_kebabFrom : ∀ (cs : List Char) (needsDash : Bool),
    kebabFrom needsDash (kebabFrom needsDash cs) = kebabFrom needsDash cs
  | [], _ => rfl
  | c :: cs, needsDash => by
    have ih := kebabFrom_kebabFrom cs
    by_cases hlow : c = '_'
    · subst hlow
      simp only [kebabFrom, if_true, kebabFrom_dash, ih]
    · by_cases hup : Text.isUppercase c = true
      · have hsmall := kebabFrom_lower hlow
          (kebabFrom ((Text.lower c).getLast? != some '-') cs)
        rw [ih] at hsmall
        cases needsDash with
        | false => simp [kebabFrom, hlow, hup, hsmall]
        | true => simp [kebabFrom, hlow, hup, hsmall, kebabFrom_dash]
      · simp [kebabFrom, hlow, hup, ih]

theorem kebabCase_kebabCase (name : String) : kebabCase (kebabCase name) = kebabCase name := by
  rw [kebabCase, kebabCase, String.toList_ofList, kebabFrom_kebabFrom]

/-- The dash that stands for an underscore, and every other character as it is. -/
def dashed (c : Char) : Char := if c = '_' then '-' else c

/-- The underscore that a dash stands for, and every other character as it is. -/
def undashed (c : Char) : Char := if c = '-' then '_' else c

/-- Without capitals the kebab case has dashes for the underscores. -/
theorem kebabFrom_of_no_capital : ∀ {cs : List Char} (needsDash : Bool),
    (∀ c ∈ cs, Text.isUppercase c = false) → kebabFrom needsDash cs = cs.map dashed
  | [], _, _ => rfl
  | c :: cs, needsDash, h => by
    rw [List.forall_mem_cons] at h
    by_cases hlow : c = '_'
    · simp [kebabFrom, hlow, dashed, kebabFrom_of_no_capital false h.2]
    · simp [kebabFrom, hlow, h.1, dashed, kebabFrom_of_no_capital (c != '-') h.2]

theorem SnakeCase.toList_kebabCase (h : SnakeCase name) :
    (kebabCase name).toList = name.toList.map dashed := by
  rw [kebabCase, String.toList_ofList]
  apply kebabFrom_of_no_capital
  intro c hc
  rcases h.plain_or_underscore c hc with hp | rfl
  · exact (plain_facts hp).1
  · exact isUppercase_separator rfl

/-- A name in snake case has no dash, so it can be read off its kebab case. -/
theorem SnakeCase.toList_eq (h : SnakeCase name) :
    name.toList = (kebabCase name).toList.map undashed := by
  rw [h.toList_kebabCase, List.map_map]
  refine (List.map_id _).symm.trans (List.map_congr_left fun c hc => ?_)
  rcases h.plain_or_underscore c hc with hp | rfl
  · obtain ⟨-, hlow, -, hdash⟩ := plain_facts hp
    simp [dashed, undashed, hlow, hdash]
  · rfl

theorem eq_of_kebabCase_eq (hx : SnakeCase x) (hy : SnakeCase y)
    (h : kebabCase x = kebabCase y) : x = y :=
  String.toList_injective (by rw [hx.toList_eq, hy.toList_eq, h])

theorem map_dashed (h : ∀ c ∈ cs, isPlain c = true) : cs.map dashed = cs := by
  refine (List.map_congr_left fun c hc => ?_).trans (List.map_id cs)
  simp [dashed, (plain_facts (h c hc)).2.1]

theorem kebabFrom_plain (hc : isPlain c = true) (needsDash : Bool) (rest : List Char) :
    kebabFrom needsDash (c :: rest) = c :: kebabFrom true rest := by
  obtain ⟨hup, hlow, -, hdash⟩ := plain_facts hc
  have hmark : (c != '-') = true := bne_iff_ne.mpr hdash
  simp [kebabFrom, hup, hlow, hmark]

/-- A capital behind a word becomes a dash and its small letter. -/
theorem kebabFrom_capital (hc : isSmall c = true) (rest : List Char) :
    kebabFrom true (capital c :: rest) = '-' :: c :: kebabFrom true rest := by
  obtain ⟨-, hlow, hup, hsmall⟩ := capital_facts hc
  have hdash : c ≠ '-' := (plain_facts (isPlain_of_isSmall hc)).2.2.2
  have hmark : (some c != some '-') = true := bne_iff_ne.mpr fun h => hdash (Option.some.inj h)
  simp [kebabFrom, hlow, hup, hsmall, hmark]

theorem kebabFrom_append (rest : List Char) : ∀ {cs : List Char}, (∀ c ∈ cs, isPlain c = true) →
    kebabFrom true (cs ++ rest) = cs ++ kebabFrom true rest
  | [], _ => rfl
  | c :: cs, h => by
    rw [List.forall_mem_cons] at h
    rw [List.cons_append, kebabFrom_plain h.1, kebabFrom_append rest h.2, List.cons_append]

/-- Words with capitals become words behind dashes. -/
theorem kebabFrom_words : ∀ {ws : List (List Char)}, (∀ w ∈ ws, Word w) →
    kebabFrom true (ws.flatMap capitalized) = (ws.flatMap ('_' :: ·)).map dashed
  | [], _ => rfl
  | [] :: _, h => (h [] List.mem_cons_self).elim
  | (c :: cs) :: ws, h => by
    rw [List.forall_mem_cons] at h
    obtain ⟨hc, hcs⟩ := h.1
    have hword : (c :: cs).map dashed = c :: cs := map_dashed h.1.plain
    have hmark : dashed '_' = '-' := rfl
    rw [List.flatMap_cons, capitalized, List.cons_append, kebabFrom_capital hc,
      kebabFrom_append _ hcs, kebabFrom_words h.2, List.flatMap_cons, List.cons_append,
      List.map_cons, hmark, List.map_append, hword, List.cons_append]

/-- The kebab case of a name is that of its camel case. -/
theorem kebabCase_camelCase (h : SnakeCase name) : kebabCase (camelCase name) = kebabCase name := by
  obtain ⟨w, ws, hw, hws, hname⟩ := h.exists_words
  apply String.toList_injective
  rw [h.toList_kebabCase, kebabCase, String.toList_ofList, toList_camelCase hw hws hname, hname,
    List.map_append, map_dashed hw.plain]
  cases w with
  | nil => exact hw.elim
  | cons c cs =>
    rw [List.cons_append, kebabFrom_plain (isPlain_of_isSmall hw.1), kebabFrom_append _ hw.2,
      kebabFrom_words hws, List.cons_append]

/-! ### Keys -/

/-- The spellings that a loader starts with. -/
def spellings : List Spelling := [asDeclared, camelCase, kebabCase]

/-- In whatever spelling, a key has the kebab case of its name. -/
theorem kebabCase_spelling (h : SnakeCase name) {spelling : Spelling}
    (hs : spelling ∈ spellings) : kebabCase (spelling name) = kebabCase name := by
  simp only [spellings, List.mem_cons, List.not_mem_nil, or_false] at hs
  rcases hs with rfl | rfl | rfl
  · rfl
  · exact kebabCase_camelCase h
  · exact kebabCase_kebabCase name

/-- No key belongs to two names. -/
theorem spelling_ne (hx : SnakeCase x) (hy : SnakeCase y) (hne : x ≠ y) {s t : Spelling}
    (hs : s ∈ spellings) (ht : t ∈ spellings) : s x ≠ t y := by
  intro h
  apply hne
  apply eq_of_kebabCase_eq hx hy
  rw [← kebabCase_spelling hx hs, h, kebabCase_spelling hy ht]

end FieldName

namespace Context

open FieldName (SnakeCase)

variable {α : Type} {ctx : Context α} {node : Node}

/-- The key under which a field is found in a node: the first one of its spellings under
which something is there. -/
def fieldKey? (ctx : Context α) (node : Node) (name : String) : Option String :=
  (ctx.spellings.map (· name)).find? fun key => (node.atKey key).isDefined

/-- The node of a field is the one under its key. -/
theorem resolveField_eq (ctx : Context α) (node : Node) (name : String) :
    ctx.resolveField node name = ((ctx.fieldKey? node name).map node.atKey).getD .undefined := by
  have hmap : (ctx.spellings.map fun spelling => node.atKey (spelling name)) =
      (ctx.spellings.map (· name)).map node.atKey := by
    rw [List.map_map]
    rfl
  rw [resolveField, hmap, List.find?_map, fieldKey?]
  rfl

theorem exists_spelling_of_fieldKey? {name key : String} (h : ctx.fieldKey? node name = some key) :
    ∃ spelling ∈ ctx.spellings, spelling name = key :=
  List.mem_map.mp (List.mem_of_find?_eq_some h)

/-- **Fields are told apart by their keys.** The keys of two distinct names in snake case, in
any of the spellings that a loader starts with, are distinct. So, with these spellings in
any order, the entry that is found for a field is found for no other. Kebab case may be made
of camel case as well as of the name itself, and it makes no difference to make camel case
of camel case, or kebab case of kebab case, whatever the text. -/
theorem fields_apart :
    (∀ environment, (Loader.standard (α := α) environment).context.spellings =
      FieldName.spellings) ∧
    (∀ x y, SnakeCase x → SnakeCase y → x ≠ y →
      ∀ s ∈ FieldName.spellings, ∀ t ∈ FieldName.spellings, s x ≠ t y) ∧
    (∀ (ctx : Context α) (node : Node),
      (∀ spelling ∈ ctx.spellings, spelling ∈ FieldName.spellings) →
      ∀ x y, SnakeCase x → SnakeCase y → x ≠ y →
        ∀ key, ctx.fieldKey? node x = some key → ctx.fieldKey? node y ≠ some key) ∧
    (∀ (ctx : Context α) (node : Node) (name : String),
      ctx.resolveField node name =
        ((ctx.fieldKey? node name).map node.atKey).getD .undefined) ∧
    (∀ x, SnakeCase x → FieldName.kebabCase (FieldName.camelCase x) = FieldName.kebabCase x) ∧
    (∀ text, FieldName.camelCase (FieldName.camelCase text) = FieldName.camelCase text) ∧
    ∀ text, FieldName.kebabCase (FieldName.kebabCase text) = FieldName.kebabCase text := by
  refine ⟨fun _ => rfl, fun x y hx hy hne s hs t ht => FieldName.spelling_ne hx hy hne hs ht,
    fun ctx node hctx x y hx hy hne key hkx hky => ?_, resolveField_eq,
    fun _ => FieldName.kebabCase_camelCase, FieldName.camelCase_camelCase,
    FieldName.kebabCase_kebabCase⟩
  obtain ⟨s, hs, rfl⟩ := exists_spelling_of_fieldKey? hkx
  obtain ⟨t, ht, he⟩ := exists_spelling_of_fieldKey? hky
  exact FieldName.spelling_ne hx hy hne (hctx s hs) (hctx t ht) he.symm

/-- A context that tries the spellings in the reverse order. -/
def kebabFirst : Context Unit :=
  (((bare .defaults).withSpelling FieldName.kebabCase).withSpelling
    FieldName.camelCase).withSpelling FieldName.asDeclared

/-- Two entries whose keys differ in the case of one letter. -/
def sizesNode : Node :=
  .map [("maxsize", .long 1 ⟨.unknown, "<root>.maxsize"⟩),
    ("maxSize", .long 2 ⟨.unknown, "<root>.maxSize"⟩)] ⟨.unknown, "<root>"⟩

theorem kebabFirst_spellings :
    ∀ spelling ∈ kebabFirst.spellings, spelling ∈ FieldName.spellings := by
  have hreverse : kebabFirst.spellings = FieldName.spellings.reverse := rfl
  intro spelling hs
  rw [hreverse] at hs
  exact List.mem_reverse.mp hs

/-- The fields `max_size` and `maxsize` are found in two entries. -/
theorem fields_sizesNode :
    (∀ spelling ∈ kebabFirst.spellings, spelling ∈ FieldName.spellings) ∧
      SnakeCase "max_size" ∧ SnakeCase "maxsize" ∧ "max_size" ≠ "maxsize" ∧
      FieldName.camelCase "max_size" = "maxSize" ∧
      kebabFirst.fieldKey? sizesNode "max_size" = some "maxSize" ∧
      kebabFirst.fieldKey? sizesNode "maxsize" ≠ some "maxSize" ∧
      FieldName.kebabCase (FieldName.camelCase "max_size") = FieldName.kebabCase "max_size" := by
  have hx : SnakeCase "max_size" := by
    refine ⟨[['m', 'a', 'x'], ['s', 'i', 'z', 'e']], List.cons_ne_nil _ _, ?_, rfl⟩
    rw [List.forall_mem_cons, List.forall_mem_singleton]
    exact ⟨⟨rfl, List.all_eq_true.mp rfl⟩, ⟨rfl, List.all_eq_true.mp rfl⟩⟩
  have hy : SnakeCase "maxsize" := by
    refine ⟨[['m', 'a', 'x', 's', 'i', 'z', 'e']], List.cons_ne_nil _ _, ?_, rfl⟩
    rw [List.forall_mem_singleton]
    exact ⟨rfl, List.all_eq_true.mp rfl⟩
  have hne : "max_size" ≠ "maxsize" := by decide
  have hkey : kebabFirst.fieldKey? sizesNode "max_size" = some "maxSize" := rfl
  obtain ⟨-, -, hapart, -, hkebab, -⟩ := fields_apart (α := Unit)
  exact ⟨kebabFirst_spellings, hx, hy, hne, rfl, hkey,
    hapart kebabFirst sizesNode kebabFirst_spellings _ _ hx hy hne _ hkey, hkebab _ hx⟩

end Context
end TypedConfig
