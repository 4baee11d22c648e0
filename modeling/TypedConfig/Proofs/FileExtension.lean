/-
# File extensions in any letter case

Two texts that are equal in small ASCII letters are the same but for the case of single
letters (`Text.asciiLowered_eq_iff`). The extension of a path is what stands behind the
last dot of its last name, if something stands in front of that dot
(`Path.hasExtension_iff`); a path that has none is treated like one whose extension is
empty (`Path.getD_extension?`).

Key definitions: `Text.SameLetter`, `Text.SameLetters`, `Path.HasExtension`,
`Path.CountsAs`.
Key theorems: `Text.asciiLowered_eq_iff`, `Path.hasExtension_iff`,
`Path.getD_extension?`.
-/
import Mathlib.Data.List.Forall2
import TypedConfig.Path
import TypedConfig.Proofs.LetterCase

namespace TypedConfig

/-! ### Letters -/

namespace Text

variable {c d : Char}

/-- `c` is a capital letter of ASCII, and `d` is the small one. -/
def CapitalOf (c d : Char) : Prop := 'A' ≤ c ∧ c ≤ 'Z' ∧ d.toNat = c.toNat + 32

/-- The characters are the same, or the same letter of ASCII in either case. -/
def SameLetter (c d : Char) : Prop := c = d ∨ CapitalOf c d ∨ CapitalOf d c

/-- The texts are the same, character by character, up to the case of ASCII letters. -/
def SameLetters (s t : String) : Prop := List.Forall₂ SameLetter s.toList t.toList

/-- The capitals of ASCII as code points. -/
theorem capital_iff : 'A' ≤ c ∧ c ≤ 'Z' ↔ 65 ≤ c.toNat ∧ c.toNat ≤ 90 := Iff.rfl

theorem toNat_asciiLower_of_capital (h : 'A' ≤ c ∧ c ≤ 'Z') :
    (asciiLower c).toNat = c.toNat + 32 := by
  have hbounds := capital_iff.mp h
  have hvalid : (c.toNat + 32).isValidChar := Or.inl (by omega)
  rw [asciiLower, if_pos h, toNat_ofNat_of_valid hvalid]

theorem asciiLower_of_not_capital (h : ¬ ('A' ≤ c ∧ c ≤ 'Z')) : asciiLower c = c := if_neg h

/-- A capital and its small letter have the same small letter. -/
theorem asciiLower_eq_of_capitalOf (h : CapitalOf c d) : asciiLower c = asciiLower d := by
  obtain ⟨hlo, hhi, hd⟩ := h
  have hbounds := capital_iff.mp ⟨hlo, hhi⟩
  have hsmall : ¬ ('A' ≤ d ∧ d ≤ 'Z') := by
    rw [capital_iff]
    omega
  have hcapital := toNat_asciiLower_of_capital ⟨hlo, hhi⟩
  rw [asciiLower_of_not_capital hsmall, ← Char.toNat_inj, hcapital, hd]

theorem asciiLower_eq_iff : asciiLower c = asciiLower d ↔ SameLetter c d := by
  constructor
  · intro h
    by_cases hc : 'A' ≤ c ∧ c ≤ 'Z'
    · have hlower := toNat_asciiLower_of_capital hc
      by_cases hd : 'A' ≤ d ∧ d ≤ 'Z'
      · have hlower' := toNat_asciiLower_of_capital hd
        rw [h] at hlower
        exact Or.inl (Char.toNat_inj.mp (by omega))
      · rw [h, asciiLower_of_not_capital hd] at hlower
        exact Or.inr (Or.inl ⟨hc.1, hc.2, hlower⟩)
    · rw [asciiLower_of_not_capital hc] at h
      by_cases hd : 'A' ≤ d ∧ d ≤ 'Z'
      · have hlower' := toNat_asciiLower_of_capital hd
        rw [← h] at hlower'
        exact Or.inr (Or.inr ⟨hd.1, hd.2, hlower'⟩)
      · rw [asciiLower_of_not_capital hd] at h
        exact Or.inl h
  · rintro (rfl | h | h)
    · rfl
    · exact asciiLower_eq_of_capitalOf h
    · exact (asciiLower_eq_of_capitalOf h).symm

/-- Texts are equal in small letters exactly if they are the same up to letter case. -/
theorem asciiLowered_eq_iff {s t : String} : asciiLowered s = asciiLowered t ↔ SameLetters s t := by
  rw [asciiLowered, asciiLowered, String.ofList_inj, ← List.forall₂_eq_eq_eq,
    List.forall₂_map_left_iff, List.forall₂_map_right_iff]
  simp only [asciiLower_eq_iff]
  rfl

/-- Small letters are left alone. -/
theorem asciiLower_asciiLower (c : Char) : asciiLower (asciiLower c) = asciiLower c := by
  by_cases hc : 'A' ≤ c ∧ c ≤ 'Z'
  · exact (asciiLower_eq_of_capitalOf ⟨hc.1, hc.2, toNat_asciiLower_of_capital hc⟩).symm
  · rw [asciiLower_of_not_capital hc, asciiLower_of_not_capital hc]

theorem asciiLowered_asciiLowered (s : String) :
    asciiLowered (asciiLowered s) = asciiLowered s := by
  simp only [asciiLowered, String.toList_ofList, List.map_map, Function.comp_def,
    asciiLower_asciiLower]

end Text

/-! ### Extensions -/

namespace Path

/-- The last component of the path is a name that ends in a dot and the extension, with
something in front of the dot. The letter case is that of the path. -/
def HasExtension (path : Path) (extension : String) : Prop :=
  ∃ stem, path.components.getLast? = some (.name (stem ++ '.' :: extension.toList)) ∧
    stem ≠ [] ∧ '.' ∉ extension.toList

/-- The extension that the path is treated as having: its own, or an empty one if it has
none. -/
def CountsAs (path : Path) (extension : String) : Prop :=
  path.HasExtension extension ∨ (extension = "" ∧ ∀ other, ¬ path.HasExtension other)

/-- A name has the extension behind its last dot, unless the name begins with that dot. -/
theorem nameExtension?_eq_some_iff {name extension : List Char} :
    nameExtension? name = some extension ↔
      ∃ stem, name = stem ++ '.' :: extension ∧ stem ≠ [] ∧ '.' ∉ extension := by
  constructor
  · intro h
    -- read from its end, the name is the extension up to the dot, and the rest
    have hsplit := List.takeWhile_append_dropWhile (p := (· ≠ '.')) (l := name.reverse)
    have hlength := congrArg List.length hsplit
    rw [List.length_append, List.length_reverse] at hlength
    rw [nameExtension?] at h
    split at h
    · next hlt =>
      obtain rfl := Option.some.inj h
      cases hrest : name.reverse.dropWhile (· ≠ '.') with
      | nil =>
        rw [hrest, List.length_nil] at hlength
        omega
      | cons dot rest =>
        have hdot : dot = '.' := by
          have hhead := List.head?_dropWhile_not (· ≠ '.') name.reverse
          rw [hrest, List.head?_cons] at hhead
          simpa using hhead
        subst hdot
        rw [hrest, List.length_cons] at hlength
        have hname := congrArg List.reverse hsplit
        rw [hrest, List.reverse_append, List.reverse_cons, List.append_assoc,
          List.reverse_reverse] at hname
        refine ⟨rest.reverse, hname.symm, ?_, ?_⟩
        · intro hnil
          rw [List.reverse_eq_nil_iff.mp hnil, List.length_nil] at hlength
          omega
        · rw [List.mem_reverse]
          intro hm
          have hne := List.all_eq_true.mp List.all_takeWhile '.' hm
          simp at hne
    · cases h
  · rintro ⟨stem, rfl, hstem, hdot⟩
    have htail : (stem ++ '.' :: extension).reverse.takeWhile (· ≠ '.') = extension.reverse := by
      rw [List.reverse_append, List.reverse_cons, List.append_assoc,
        List.takeWhile_append_of_pos fun c hc => by
          rw [decide_eq_true_eq]
          rintro rfl
          exact hdot (List.mem_reverse.mp hc)]
      simp
    have hlength : 0 < stem.length := List.length_pos_iff.mpr hstem
    rw [nameExtension?, htail, if_pos, List.reverse_reverse]
    rw [List.length_reverse, List.length_append, List.length_cons]
    omega

/-- A path has the extension of its last component, as that was written. -/
theorem hasExtension_iff {path : Path} {extension : String} :
    path.HasExtension extension ↔
      ∃ name, path.components.getLast? = some (.name name) ∧
        nameExtension? name = some extension.toList := by
  simp only [nameExtension?_eq_some_iff]
  constructor
  · rintro ⟨stem, hlast, hstem, hdot⟩
    exact ⟨_, hlast, stem, rfl, hstem, hdot⟩
  · rintro ⟨name, hlast, stem, rfl, hstem, hdot⟩
    exact ⟨stem, hlast, hstem, hdot⟩

theorem extension?_of_hasExtension {path : Path} {extension : String}
    (h : path.HasExtension extension) :
    path.extension? = some (Text.asciiLowered extension) := by
  obtain ⟨name, hlast, hname⟩ := hasExtension_iff.mp h
  rw [extension?, hlast]
  change (nameExtension? name).map _ = _
  rw [hname]
  rfl

theorem extension?_eq_none {path : Path} (h : ∀ other, ¬ path.HasExtension other) :
    path.extension? = none := by
  rw [extension?]
  split
  · next name hlast =>
    cases hname : nameExtension? name with
    | none => rfl
    | some cs =>
      refine absurd (hasExtension_iff.mpr ⟨name, hlast, ?_⟩) (h (String.ofList cs))
      rw [hname, String.toList_ofList]
  · rfl

/-- The extension that is looked up is the one that the path counts as having, in small
letters. -/
theorem getD_extension? {path : Path} {extension : String} (h : path.CountsAs extension) :
    path.extension?.getD "" = Text.asciiLowered extension := by
  rcases h with h | ⟨rfl, h⟩
  · rw [extension?_of_hasExtension h, Option.getD_some]
  · rw [extension?_eq_none h]
    rfl

/-- Letter case is kept, a dot at the front begins no extension, and one at the end begins
an empty one. -/
example : (⟨"conf.d/App.YAML"⟩ : Path).extension? = some "yaml" ∧
    (⟨"conf.d/.yaml"⟩ : Path).extension? = none ∧ (⟨"app."⟩ : Path).extension? = some "" := by
  decide

end Path
end TypedConfig
