/-
# References in a text

A reference is a dollar sign with a name in braces; the name has characters, none of
which is a closing brace. Read from left to right a text falls into references and
characters that belong to none in exactly one way: wherever a reference begins it is
taken whole (`reading_iff`). What a reference becomes is put beside what stands around
it and not read again.

So a text that is written as references with plain text between them, in which no
reference opens, has these references and no others (`Template.reading`), whatever the
values are that they are replaced by.

Key definitions: `Reading`, `Name`, `Literal`, `Template`.
Key theorems: `reference?_eq_some_iff`, `reading_iff`, `Template.reading`,
`preprocessor_substitutes`.
-/
import Mathlib.Data.List.Infix
import TypedConfig.Proofs.Substitution

namespace TypedConfig
namespace Substitution

variable {cs name rest : List Char} {row : List Segment}

/-! ### The reading of a text -/

/-- The characters may stand between the braces of a reference. -/
def IsName (name : List Char) : Prop := name ≠ [] ∧ '\x7d' ∉ name

/-- Whether the segment can stand in front of the given text: no reference begins with a
character that belongs to none. -/
def Segment.Fits : Segment → List Char → Prop
  | .literal c, rest =>
    ∀ name after, IsName name → c :: rest ≠ Segment.source (.reference name) ++ after
  | .reference name, _ => IsName name

/-- The text falls into the segments, one after another. -/
def Reading : List Segment → List Char → Prop
  | [], text => text = []
  | segment :: row, text =>
    ∃ rest, text = segment.source ++ rest ∧ segment.Fits rest ∧ Reading row rest

theorem inName_iff {c : Char} : inName c = true ↔ c ≠ '\x7d' := bne_iff_ne

/-- The name of a reference goes up to the first closing brace. -/
theorem reference?_eq_some_iff :
    reference? cs = some (name, rest) ↔ IsName name ∧ cs = name ++ '\x7d' :: rest := by
  constructor
  · intro h
    have hsplit : cs.takeWhile inName ++ cs.dropWhile inName = cs :=
      List.takeWhile_append_dropWhile
    unfold reference? at h
    split at h
    · rename_i c more d after hname hafter
      cases h
      rw [hname, hafter] at hsplit
      have hplain : '\x7d' ∉ cs.takeWhile inName := fun hm =>
        absurd (List.all_eq_true.mp List.all_takeWhile _ hm) (by decide)
      have hd : d = '\x7d' := by
        have hhead := List.head?_dropWhile_not inName cs
        rw [hafter] at hhead
        simpa [inName] using hhead
      exact ⟨⟨List.cons_ne_nil _ _, hname ▸ hplain⟩, by rw [← hsplit, hd]⟩
    · cases h
  · rintro ⟨⟨hne, hplain⟩, rfl⟩
    have hall : ∀ c ∈ name, inName c = true := fun c hc =>
      inName_iff.mpr fun he => hplain (he ▸ hc)
    have hbrace : ¬ inName '\x7d' = true := by decide
    obtain ⟨c, more, rfl⟩ := List.exists_cons_of_ne_nil hne
    rw [reference?, List.takeWhile_append_of_pos hall, List.dropWhile_append_of_pos hall,
      List.takeWhile_cons_of_neg hbrace, List.dropWhile_cons_of_neg hbrace, List.append_nil]

/-- An opening that no closing brace follows stands for itself. -/
theorem segments_opening (h : reference? cs = none) :
    segments ('$' :: '\x7b' :: cs) = .literal '$' :: segments ('\x7b' :: cs) := by
  rw [segments]
  split
  · rename_i hr
    rw [h] at hr
    cases hr
  · rfl

/-- Where no reference begins, a character stands for itself. -/
theorem segments_literal {c : Char} (h : (Segment.literal c).Fits cs) :
    segments (c :: cs) = .literal c :: segments cs := by
  by_cases hopen : c = '$' ∧ ∃ more, cs = '\x7b' :: more
  · obtain ⟨rfl, more, rfl⟩ := hopen
    have hnone : reference? more = none := by
      rw [Option.eq_none_iff_forall_ne_some]
      rintro ⟨name, rest⟩ hr
      obtain ⟨hname, rfl⟩ := reference?_eq_some_iff.mp hr
      exact h name rest hname (by simp [Segment.source])
    exact segments_opening hnone
  · rw [segments]
    exact fun more hc hcs => hopen ⟨hc, more, hcs⟩

theorem segments_source (hname : IsName name) (rest : List Char) :
    segments (Segment.source (.reference name) ++ rest) = .reference name :: segments rest := by
  have hr : reference? (name ++ '\x7d' :: rest) = some (name, rest) :=
    reference?_eq_some_iff.mpr ⟨hname, rfl⟩
  simpa [Segment.source] using segments_reference hr

theorem reading_segments (text : List Char) : Reading (segments text) text := by
  fun_induction segments text with
  | case1 => rfl
  | case2 cs name rest hr hlt ih =>
    obtain ⟨hname, rfl⟩ := reference?_eq_some_iff.mp hr
    exact ⟨rest, by simp [Segment.source], hname, ih⟩
  | case3 cs hr ih =>
    refine ⟨_, rfl, fun name after hname he => ?_, ih⟩
    have hcs : cs = name ++ '\x7d' :: after := by simpa [Segment.source] using he
    rw [reference?_eq_some_iff.mpr ⟨hname, hcs⟩] at hr
    cases hr
  | case4 c cs hopen ih =>
    refine ⟨cs, rfl, fun name after hname he => ?_, ih⟩
    obtain ⟨hc, hcs⟩ := List.cons.inj he
    exact hopen _ hc hcs

/-- **Every text has one reading**, the one that the scan from left to right finds. -/
theorem reading_iff : ∀ {row : List Segment} {text : List Char},
    Reading row text ↔ row = segments text
  | row, text => by
    refine ⟨fun h => ?_, fun h => h ▸ reading_segments text⟩
    induction row generalizing text with
    | nil =>
      rw [show text = [] from h, segments]
    | cons segment row ih =>
      obtain ⟨rest, rfl, hfits, h⟩ := h
      cases segment with
      | literal c => rw [ih rest h, Segment.source, List.singleton_append, segments_literal hfits]
      | reference name => rw [ih rest h, segments_source hfits]

/-! ### What is put in the place of references -/

theorem hasOpening_iff : hasOpening cs = true ↔ ['$', '\x7b'] <:+: cs := by
  fun_induction hasOpening cs with
  | case1 cs => simpa using (List.prefix_append ['$', '\x7b'] cs).isInfix
  | case2 c cs hno ih =>
    rw [ih, List.infix_cons_iff, iff_or_self]
    rintro ⟨after, he⟩
    obtain ⟨hc, hcs⟩ := List.cons.inj he
    exact (hno after hc.symm hcs.symm).elim
  | case3 => simp

theorem replaced_flatMap_congr {lookup lookup' : String → Option String} (row : List Segment)
    (h : ∀ name, .reference name ∈ row → lookup' (.ofList name) = lookup (.ofList name)) :
    row.flatMap (·.replaced lookup') = row.flatMap (·.replaced lookup) := by
  rw [List.flatMap_def, List.flatMap_def]
  refine congrArg List.flatten (List.map_congr_left fun segment hm => ?_)
  cases segment with
  | literal c => rfl
  | reference name => rw [Segment.replaced, Segment.replaced, h name hm]

theorem Reading.text_eq : ∀ {row : List Segment} {text : List Char}, Reading row text →
    row.flatMap Segment.source = text
  | [], _, h => h.symm
  | segment :: row, _, ⟨rest, htext, _, h⟩ => by rw [htext, List.flatMap_cons, h.text_eq]

/-- References to unknown variables stay as they are written. -/
theorem Reading.replaced_unknown {text : List Char} (h : Reading row text) :
    row.flatMap (·.replaced fun _ => none) = text := by
  have hsource : ∀ segment : Segment, segment.replaced (fun _ => none) = segment.source := by
    intro segment
    cases segment <;> rfl
  simp only [hsource, h.text_eq]

/-! ### Texts that are written with references -/

/-- The name of a variable, as it stands in a reference. -/
structure Name where
  chars : List Char
  isName : IsName chars

/-- Text in which no reference opens. -/
structure Literal where
  chars : List Char
  plain : ¬ ['$', '\x7b'] <:+: chars

/-- Plain text, and references each with plain text behind it. -/
structure Template where
  first : Literal
  parts : List (Name × Literal)

namespace Template

/-- The text as it is written. -/
def text (template : Template) : List Char :=
  template.first.chars ++ template.parts.flatMap fun part =>
    ['$', '\x7b'] ++ part.1.chars ++ ['\x7d'] ++ part.2.chars

/-- What a reference stands for: the value of the variable, and the reference itself if there
is no such variable. -/
def meaning (lookup : String → Option String) (name : Name) : List Char :=
  match lookup (String.ofList name.chars) with
  | some value => value.toList
  | none => ['$', '\x7b'] ++ name.chars ++ ['\x7d']

/-- The text with what its references stand for in their place. -/
def filled (lookup : String → Option String) (template : Template) : List Char :=
  template.first.chars ++ template.parts.flatMap fun part =>
    meaning lookup part.1 ++ part.2.chars

/-- The characters of the plain text and the references. -/
def segments (template : Template) : List Segment :=
  template.first.chars.map .literal ++ template.parts.flatMap fun part =>
    .reference part.1.chars :: part.2.chars.map .literal

end Template

/-- Each character of plain text stands for itself, also in front of other text unless that goes
on with an opening brace. -/
theorem Reading.literal_append (h : Reading row rest) (hrest : rest.head? ≠ some '\x7b') :
    ∀ {cs : List Char}, ¬ ['$', '\x7b'] <:+: cs → Reading (cs.map .literal ++ row) (cs ++ rest)
  | [], _ => h
  | c :: cs, hplain => by
    have ih : Reading (cs.map .literal ++ row) (cs ++ rest) :=
      h.literal_append hrest fun hi => hplain (List.infix_cons hi)
    refine ⟨cs ++ rest, rfl, fun name after _ he => ?_, ih⟩
    obtain ⟨hc, htail⟩ := List.cons.inj he
    cases cs with
    | nil =>
      have hhead : rest = '\x7b' :: _ := htail
      exact hrest (by rw [hhead]; rfl)
    | cons d cs =>
      -- the opening would stand in the plain text
      obtain ⟨hd, -⟩ := List.cons.inj htail
      subst hc hd
      exact hplain (List.prefix_append ['$', '\x7b'] cs).isInfix

namespace Template

variable (template : Template) (lookup : String → Option String)

theorem reading_parts : ∀ parts : List (Name × Literal),
    Reading
      (parts.flatMap fun part => .reference part.1.chars :: part.2.chars.map .literal)
      (parts.flatMap fun part =>
        ['$', '\x7b'] ++ part.1.chars ++ ['\x7d'] ++ part.2.chars)
  | [] => rfl
  | (name, after) :: parts => by
    have ih := reading_parts parts
    refine ⟨_, List.append_assoc _ _ _, name.isName, ih.literal_append ?_ after.plain⟩
    cases parts <;> simp

/-- A template is read as it is written. -/
theorem reading : Reading template.segments template.text := by
  refine (reading_parts template.parts).literal_append ?_ template.first.plain
  cases template.parts <;> simp

theorem replaced_segments :
    template.segments.flatMap (·.replaced lookup) = template.filled lookup := by
  have hplain : ∀ cs : List Char, (cs.map Segment.literal).flatMap (·.replaced lookup) = cs := by
    intro cs
    simp [List.flatMap_map, Segment.replaced]
  have hparts : ∀ parts : List (Name × Literal),
      (parts.flatMap fun part =>
        Segment.reference part.1.chars :: part.2.chars.map .literal).flatMap (·.replaced lookup) =
      parts.flatMap fun part => meaning lookup part.1 ++ part.2.chars := by
    intro parts
    rw [List.flatMap_assoc]
    simp only [List.flatMap_cons, hplain]
    rfl
  rw [segments, filled, List.flatMap_append, hplain, hparts]

/-- A reference opens in a template exactly if it has one. -/
theorem hasOpening_text : hasOpening template.text = true ↔ template.parts ≠ [] := by
  rw [hasOpening_iff]
  constructor
  · intro h hnil
    rw [text, hnil, List.flatMap_nil, List.append_nil] at h
    exact template.first.plain h
  · intro hne
    obtain ⟨⟨name, after⟩, parts, hparts⟩ := List.exists_cons_of_ne_nil hne
    rw [text, hparts, List.flatMap_cons]
    simp only [List.append_assoc]
    exact List.infix_append' _ _ _

end Template

/-! ### The preprocessor -/

theorem substitute_of_reading {text : String} (h : Reading row text.toList)
    (lookup : String → Option String) :
    substitute lookup text = String.ofList (row.flatMap (·.replaced lookup)) := by
  rw [substitute, ← reading_iff.mp h]

theorem preprocessor_string (lookup : String → Option String) (text : String) (place : Place) :
    preprocessor lookup (.string text place) =
      if hasOpening text.toList then some (.string (substitute lookup text) place) else none := rfl

/-- **References are replaced by the values of variables.** In a text node that is written as
plain text with references in it, the value of each variable comes to stand in the place of the
reference as it is, whatever it is, and a reference to an unknown variable stays; place and kind
of the node are kept.

Every text has one reading. What becomes of it depends on the variables that the references of
this reading name, and on nothing else of the lookup; if all of them are unknown, the text stays
as it is. A node that is no text, or a text in which no reference opens, is left alone. -/
theorem preprocessor_substitutes (lookup : String → Option String) :
    (∀ (template : Template) place,
      preprocessor lookup (.string (.ofList template.text) place) =
        if template.parts = [] then none
        else some (.string (.ofList (template.filled lookup)) place)) ∧
    (∀ text : String, ∃! row, Reading row text.toList) ∧
    (∀ (text : String) row place, Reading row text.toList →
      (∀ lookup' : String → Option String,
        (∀ name, .reference name ∈ row → lookup' (.ofList name) = lookup (.ofList name)) →
        preprocessor lookup' (.string text place) = preprocessor lookup (.string text place)) ∧
      ((∀ name, .reference name ∈ row → lookup (.ofList name) = none) →
        (preprocessor lookup (.string text place)).getD (.string text place) =
          .string text place)) ∧
    ∀ node : Node, (∀ text place, node = .string text place → ¬ ['$', '\x7b'] <:+: text.toList) →
      preprocessor lookup node = none := by
  refine ⟨fun template place => ?_, fun text => ?_, fun text row place h => ⟨?_, ?_⟩, ?_⟩
  · have hreading : Reading template.segments (String.ofList template.text).toList := by
      rw [String.toList_ofList]
      exact template.reading
    rw [preprocessor_string, String.toList_ofList, substitute_of_reading hreading,
      template.replaced_segments]
    by_cases hparts : template.parts = []
    · have hno : ¬ hasOpening template.text = true := fun h => template.hasOpening_text.mp h hparts
      rw [if_pos hparts, if_neg hno]
    · rw [if_neg hparts, if_pos (template.hasOpening_text.mpr hparts)]
  · exact ⟨segments text.toList, reading_segments _, fun _ => reading_iff.mp⟩
  · intro lookup' hsame
    rw [preprocessor_string, preprocessor_string, substitute_of_reading h,
      substitute_of_reading h, replaced_flatMap_congr row hsame]
  · intro hunknown
    have hkept : substitute lookup text = text := by
      have hnone : row.flatMap (·.replaced lookup) = row.flatMap (·.replaced fun _ => none) :=
        replaced_flatMap_congr row hunknown
      rw [substitute_of_reading h, hnone, h.replaced_unknown, String.ofList_toList]
    rw [preprocessor_string, hkept]
    split <;> rfl
  · intro node hplain
    cases node with
    | string text place =>
      have hno : ¬ hasOpening text.toList = true :=
        fun h => hplain text place rfl (hasOpening_iff.mp h)
      rw [preprocessor_string, if_neg hno]
    | _ => rfl

/-- A dollar sign in front of a reference, a brace behind one, and a reference to an unknown
variable in front of a dollar sign. -/
def address : Template :=
  ⟨⟨['a', '$'], by decide⟩,
    [(⟨['H'], by decide, by decide⟩, ⟨['\x7d', ':'], by decide⟩),
      (⟨['P'], by decide, by decide⟩, ⟨['/'], by decide⟩),
      (⟨['N'], by decide, by decide⟩, ⟨['$'], by decide⟩)]⟩

/-- The value of the first variable would begin a reference to the second. -/
def addressLookup (name : String) : Option String :=
  if name = "H" then some "$\x7bP" else if name = "P" then some "5432" else none

/-- The text of the template. -/
def addressText : String := "a$$\x7bH\x7d\x7d:$\x7bP\x7d/$\x7bN\x7d$"

theorem name_of_mem_address {name : List Char} (h : .reference name ∈ address.segments) :
    name ∈ [['H'], ['P'], ['N']] := by
  have hall : ∀ segment ∈ address.segments, ∀ name, segment = .reference name →
      name ∈ [['H'], ['P'], ['N']] := by
    simp [Template.segments, address]
  exact hall _ h name rfl

/-- What is put in stays as it is, also where it makes a reference with the brace behind it. A
variable that is not referred to plays no part, and without variables the text stays. -/
theorem preprocessor_address :
    (String.ofList address.text = addressText ∧ Reading address.segments addressText.toList) ∧
    preprocessor addressLookup (.string addressText ⟨.unknown, "<root>"⟩) =
      some (.string "a$$\x7bP\x7d:5432/$\x7bN\x7d$" ⟨.unknown, "<root>"⟩) ∧
    preprocessor (fun name => if name = "Q" then some "?" else addressLookup name)
        (.string addressText ⟨.unknown, "<root>"⟩) =
      some (.string "a$$\x7bP\x7d:5432/$\x7bN\x7d$" ⟨.unknown, "<root>"⟩) ∧
    (preprocessor (fun _ => none) (.string addressText ⟨.unknown, "<root>"⟩)).getD
        (.string addressText ⟨.unknown, "<root>"⟩) = .string addressText ⟨.unknown, "<root>"⟩ ∧
    preprocessor addressLookup (.string "$ \x7bP\x7d" ⟨.unknown, "<root>"⟩) = none := by
  have htext : String.ofList address.text = addressText := by decide
  have hreading : Reading address.segments addressText.toList := by
    rw [← htext, String.toList_ofList]
    exact address.reading
  obtain ⟨hfilled, -, hread, hleft⟩ := preprocessor_substitutes addressLookup
  have haddress : preprocessor addressLookup (.string addressText ⟨.unknown, "<root>"⟩) =
      some (.string "a$$\x7bP\x7d:5432/$\x7bN\x7d$" ⟨.unknown, "<root>"⟩) := by
    rw [← htext, hfilled address, if_neg (by simp [address])]
    rfl
  refine ⟨⟨htext, hreading⟩, haddress, ?_, ?_, hleft _ ?_⟩
  · rw [(hread addressText _ _ hreading).1, haddress]
    intro name hm
    have hnames := name_of_mem_address hm
    simp only [List.mem_cons, List.not_mem_nil, or_false] at hnames
    rcases hnames with rfl | rfl | rfl <;> rfl
  · exact ((preprocessor_substitutes fun _ => none).2.2.1 addressText _ _ hreading).2 fun _ _ => rfl
  · rintro text place he
    cases he
    decide

end Substitution
end TypedConfig
