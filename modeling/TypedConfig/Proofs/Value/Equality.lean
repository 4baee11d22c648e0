/-
# Equality of values

Two sets count as equal if they have the same number of elements and each element
of the one is equal to some element of the other. That this can be read from either
side is no matter of course: it takes that no two elements of the set are equal, so
that they find different partners and use up the other set (`equals_set_iff`).

For proper values, then, equality is symmetric and transitive, and a value equals
itself unless it holds a NaN (`equals_partialEquiv`). Both laws are needed of the
parts to have one of them for the whole, so they are shown together, by induction
on the size of the values (`partialEquiv_below`). At each level equality is a
matching of the parts (`Alike`), which carries over what holds of the parts.

Key definitions: `Value.Alike`, `Value.PartialEquiv`.
Key theorems: `Value.mirrored`, `Value.equals_set_iff`, `Value.equals_iff_alike`,
`Value.equals_self_iff`, `Value.equals_partialEquiv`.
-/
import TypedConfig.Proofs.Entries
import TypedConfig.Proofs.Matching
import TypedConfig.Proofs.Value.Parts

namespace TypedConfig

namespace Double

/-! ### Numeric equality -/

theorem same_iff {a b : Double} : a.same b = true ↔ a.isNaN = false ∧ b.isNaN = false ∧
    (a = b ∨ a.magnitude = 0 ∧ b.magnitude = 0) := by
  obtain ⟨a⟩ := a
  obtain ⟨b⟩ := b
  simp [same, and_assoc]

theorem same_symm {a b : Double} (h : a.same b = true) : b.same a = true := by
  rw [same_iff] at h ⊢
  exact ⟨h.2.1, h.1, h.2.2.imp Eq.symm And.symm⟩

theorem same_trans {a b c : Double} (hab : a.same b = true) (hbc : b.same c = true) :
    a.same c = true := by
  rw [same_iff] at hab hbc ⊢
  refine ⟨hab.1, hbc.2.1, ?_⟩
  rcases hab.2.2 with rfl | ⟨ha, hb⟩
  · exact hbc.2.2
  · rcases hbc.2.2 with rfl | ⟨-, hc⟩
    · exact Or.inr ⟨ha, hb⟩
    · exact Or.inr ⟨ha, hc⟩

/-- A double equals itself unless it is a NaN. -/
theorem same_self_iff {a : Double} : a.same a = true ↔ a.isNaN = false := by
  rw [same_iff]
  exact ⟨And.left, fun h => ⟨h, h, Or.inl rfl⟩⟩

end Double

namespace Value

variable {α : Type} {x y z : Value α} {xs ys : List (Value α)} {es fs : List (String × Value α)}

/-! ### Equality of the parts -/

theorem listEquals_iff : ∀ {xs ys : List (Value α)},
    listEquals xs ys = true ↔ List.Forall₂ (fun x y => x.equals y = true) xs ys
  | [], [] => by simp [listEquals]
  | [], _ :: _ => by simp [listEquals]
  | _ :: _, [] => by simp [listEquals]
  | x :: xs, y :: ys => by
    rw [listEquals, Bool.and_eq_true, listEquals_iff, List.forall₂_cons]

theorem listEqualledBy_iff : ∀ {xs ys : List (Value α)},
    listEqualledBy xs ys = true ↔ List.Forall₂ (fun x y => equalledBy x y = true) xs ys
  | [], [] => by simp [listEqualledBy]
  | [], _ :: _ => by simp [listEqualledBy]
  | _ :: _, [] => by simp [listEqualledBy]
  | x :: xs, y :: ys => by
    rw [listEqualledBy, Bool.and_eq_true, listEqualledBy_iff, List.forall₂_cons]

theorem eachEqualled_iff : ∀ {xs ys : List (Value α)},
    eachEqualled xs ys = true ↔ ∀ x ∈ xs, ∃ y ∈ ys, equalledBy x y = true
  | [], _ => by simp [eachEqualled]
  | x :: xs, ys => by
    rw [eachEqualled, Bool.and_eq_true, eachEqualled_iff, List.any_eq_true, List.forall_mem_cons]

theorem someEquals_iff : ∀ {xs : List (Value α)} {y : Value α},
    someEquals xs y = true ↔ ∃ x ∈ xs, x.equals y = true
  | [], _ => by simp [someEquals]
  | x :: xs, y => by
    rw [someEquals, Bool.or_eq_true, someEquals_iff]
    simp

theorem entriesEqual_iff : ∀ {es fs : List (String × Value α)},
    entriesEqual es fs = true ↔ ∀ e ∈ es, ∃ y, fs.lookup e.1 = some y ∧ e.2.equals y = true
  | [], _ => by simp [entriesEqual]
  | (key, x) :: es, fs => by
    rw [entriesEqual, Bool.and_eq_true, entriesEqual_iff, List.forall_mem_cons]
    cases fs.lookup key <;> simp

theorem entryEqualledBy_iff {key : String} : ∀ {es : List (String × Value α)},
    entryEqualledBy es key y = true ↔ ∃ x, es.lookup key = some x ∧ equalledBy x y = true
  | [] => by simp [entryEqualledBy]
  | (k, x) :: es => by
    rw [entryEqualledBy, List.lookup_cons]
    cases key == k
    · simp [entryEqualledBy_iff]
    · simp

/-- The two directions of equality agree on what they say of a value. -/
def Mirrored (x : Value α) : Prop :=
  ∀ y, (equalledBy x y = true ↔ y.equals x = true) ∧ (equalledBy y x = true ↔ x.equals y = true)

theorem mirrored_entries (ih : ∀ x ∈ es.map (·.2), Mirrored x) (fs : List (String × Value α)) :
    ((∀ f ∈ fs, entryEqualledBy es f.1 f.2 = true) ↔ entriesEqual fs es = true) ∧
      ((∀ e ∈ es, entryEqualledBy fs e.1 e.2 = true) ↔ entriesEqual es fs = true) := by
  simp only [entryEqualledBy_iff, entriesEqual_iff]
  constructor
  · refine forall₂_congr fun f _ => exists_congr fun x => and_congr_right fun hx => ?_
    exact (ih x (mem_children_of_entry (Entries.mem_of_lookup hx)) f.2).1
  · refine forall₂_congr fun e he => exists_congr fun y => and_congr_right fun _ => ?_
    exact (ih e.2 (mem_children_of_entry he) y).2

/-- Equality read from the right is equality. -/
theorem mirrored (x : Value α) : Mirrored x := by
  induction x using induction with
  | parts x ih =>
    intro y
    cases x with
    | list xs =>
      cases y with
      | list ys =>
        simp only [equals, equalledBy, listEquals_iff, listEqualledBy_iff]
        constructor
        · constructor
          · exact fun h => forall₂_symm_of_mem h fun x hx y _ => (ih x hx y).1.mp
          · exact fun h => forall₂_symm_of_mem h fun y _ x hx => (ih x hx y).1.mpr
        · constructor
          · exact fun h => forall₂_symm_of_mem h fun y _ x hx => (ih x hx y).2.mp
          · exact fun h => forall₂_symm_of_mem h fun x hx y _ => (ih x hx y).2.mpr
      | _ => simp [equals, equalledBy]
    | set xs =>
      cases y with
      | set ys =>
        simp only [equals, equalledBy, Bool.and_eq_true, List.all_eq_true, someEquals_iff,
          eachEqualled_iff]
        constructor
        · refine and_congr_right fun _ => forall₂_congr fun y _ => exists_congr fun x => ?_
          exact and_congr_right fun hx => (ih x hx y).2.symm
        · refine and_congr_right fun _ => forall₂_congr fun x hx => exists_congr fun y => ?_
          exact and_congr_right fun _ => (ih x hx y).1.symm
      | _ => simp [equals, equalledBy]
    | map es =>
      cases y with
      | map fs =>
        obtain ⟨hright, hleft⟩ := mirrored_entries ih fs
        simp only [equals, equalledBy, Bool.and_eq_true, List.all_eq_true, hright, hleft]
        trivial
      | _ => simp [equals, equalledBy]
    | record name es =>
      cases y with
      | record name' fs =>
        obtain ⟨hright, hleft⟩ := mirrored_entries ih fs
        simp only [equals, equalledBy, Bool.and_eq_true, List.all_eq_true, hright, hleft]
        trivial
      | _ => simp [equals, equalledBy]
    | _ => cases y <;> simp [equals, equalledBy]

/-! ### Equality one level at a time -/

theorem equals_set_iff_each : (set xs).equals (set ys) = true ↔
    xs.length = ys.length ∧ ∀ x ∈ xs, ∃ y ∈ ys, y.equals x = true := by
  simp only [equals, Bool.and_eq_true, beq_iff_eq, eachEqualled_iff, (mirrored _ _).1]

/-- The entries have one key and equal values. -/
def SameEntry (e f : String × Value α) : Prop := e.1 = f.1 ∧ e.2.equals f.2 = true

/-- Equal values are of one kind and made of equal parts, those of sets, maps and records in
any order. -/
inductive Alike : Value α → Value α → Prop
  | null : Alike .null .null
  | boolean {b : Bool} : Alike (.boolean b) (.boolean b)
  | long {k : Int64} : Alike (.long k) (.long k)
  | double {a b : Double} (h : a.same b = true) : Alike (.double a) (.double b)
  | string {s : String} : Alike (.string s) (.string s)
  | path {p q : Path} (h : p.components = q.components) : Alike (.path p) (.path q)
  | enum {c : String} : Alike (.enum c) (.enum c)
  | list {xs ys : List (Value α)} (h : List.Forall₂ (fun x y => x.equals y = true) xs ys) :
      Alike (.list xs) (.list ys)
  | set {xs ys : List (Value α)} (h : Matched (fun x y => x.equals y = true) xs ys) :
      Alike (.set xs) (.set ys)
  | map {es fs : List (String × Value α)} (h : Matched SameEntry es fs) :
      Alike (.map es) (.map fs)
  | record {name : String} {es fs : List (String × Value α)} (h : Matched SameEntry es fs) :
      Alike (.record name es) (.record name fs)
  | custom {identity : Identity} {a b : α} :
      Alike (.custom identity a) (.custom identity b)

/-- On the values that have the property, equality is symmetric and transitive. -/
structure PartialEquiv (S : Value α → Prop) : Prop where
  symm : ∀ {x y : Value α}, S x → S y → x.equals y = true → y.equals x = true
  trans : ∀ {x y z : Value α}, S x → S y → S z → x.equals y = true → y.equals z = true →
    x.equals z = true

section level

variable {S : Value α → Prop} (hS : PartialEquiv S)
include hS

/-- Sets are equal if their elements match: as no two elements of the left one are equal, they
find different partners, and these are all of the right one. -/
theorem equals_set_iff (hd : (set xs).Distinct) (hx : ∀ x ∈ xs, S x) (hy : ∀ y ∈ ys, S y) :
    (set xs).equals (set ys) = true ↔ Matched (fun x y => x.equals y = true) xs ys := by
  rw [equals_set_iff_each]
  constructor
  · rintro ⟨hlen, hpartner⟩
    refine matched_of_partners (fun x hm => ?_) ?_ (Nat.le_of_eq hlen.symm)
    · obtain ⟨y, hym, hyx⟩ := hpartner x hm
      exact ⟨y, hym, hS.symm (hy y hym) (hx x hm) hyx⟩
    · refine List.Pairwise.imp_of_mem (fun {a b} ha hb hab y hym hay hby => ?_) hd
      have hyb : y.equals b = true := hS.symm (hx b hb) (hy y hym) hby
      have hequal : a.equals b = true := hS.trans (hx a ha) (hy y hym) (hx b hb) hay hyb
      rw [hab] at hequal
      cases hequal
  · intro h
    refine ⟨h.length_eq, fun x hm => ?_⟩
    obtain ⟨y, hym, hxy⟩ := h.exists_partner x hm
    exact ⟨y, hym, hS.symm (hx x hm) (hy y hym) hxy⟩

omit hS in
/-- Entries with distinct keys are equal if they match. -/
theorem entries_equal_iff (hes : (Entries.keys es).Nodup) (hfs : (Entries.keys fs).Nodup) :
    (es.length == fs.length && entriesEqual es fs) = true ↔ Matched SameEntry es fs := by
  rw [Bool.and_eq_true, beq_iff_eq, entriesEqual_iff]
  constructor
  · rintro ⟨hlen, hpartner⟩
    refine matched_of_partners (fun e he => ?_) ?_ (Nat.le_of_eq hlen.symm)
    · obtain ⟨y, hy, hequal⟩ := hpartner e he
      exact ⟨(e.1, y), Entries.mem_of_lookup hy, rfl, hequal⟩
    · refine (List.pairwise_map.mp hes).imp fun {a b} hab f _ haf hbf => ?_
      exact hab (haf.1.trans hbf.1.symm)
  · intro h
    refine ⟨h.length_eq, fun e he => ?_⟩
    obtain ⟨f, hf, hkey, hequal⟩ := h.exists_partner e he
    exact ⟨f.2, hkey ▸ Entries.lookup_of_mem hfs hf, hequal⟩

/-- Equality of values whose parts have the property. -/
theorem equals_iff_alike_of (hx : x.Distinct) (hy : y.Distinct) (hcx : ∀ c ∈ x.children, S c)
    (hcy : ∀ c ∈ y.children, S c) : x.equals y = true ↔ Alike x y := by
  constructor
  · intro h
    unfold equals at h
    split at h
    · exact .null
    · rw [beq_iff_eq.mp h]
      exact .boolean
    · rw [beq_iff_eq.mp h]
      exact .long
    · exact .double h
    · rw [beq_iff_eq.mp h]
      exact .string
    · exact .path (beq_iff_eq.mp h)
    · rw [beq_iff_eq.mp h]
      exact .enum
    · exact .list (listEquals_iff.mp h)
    · refine .set ((equals_set_iff hS hx hcx hcy).mp ?_)
      rw [equals]
      exact h
    · exact .map ((entries_equal_iff hx hy).mp h)
    · rw [Bool.and_assoc, Bool.and_eq_true] at h
      rw [beq_iff_eq.mp h.1]
      exact .record ((entries_equal_iff hx hy).mp h.2)
    · rw [beq_iff_eq.mp h]
      exact .custom
    · cases h
  · intro h
    cases h with
    | double h => rwa [equals]
    | path h =>
      rw [equals]
      exact beq_iff_eq.mpr h
    | list h => rwa [equals, listEquals_iff]
    | set h => exact (equals_set_iff hS hx hcx hcy).mpr h
    | map h =>
      rw [equals]
      exact (entries_equal_iff hx hy).mpr h
    | record h =>
      rw [equals, Bool.and_assoc, beq_self_eq_true, Bool.true_and]
      exact (entries_equal_iff hx hy).mpr h
    | _ => simp [equals]

theorem matched_entries_symm (he : ∀ c ∈ es.map (·.2), S c) (hf : ∀ c ∈ fs.map (·.2), S c)
    (h : Matched SameEntry es fs) : Matched SameEntry fs es := by
  refine h.symm_of fun e hem f hfm hef => ⟨hef.1.symm, ?_⟩
  exact hS.symm (he _ (mem_children_of_entry hem)) (hf _ (mem_children_of_entry hfm)) hef.2

theorem matched_entries_trans {gs : List (String × Value α)} (he : ∀ c ∈ es.map (·.2), S c)
    (hf : ∀ c ∈ fs.map (·.2), S c) (hg : ∀ c ∈ gs.map (·.2), S c)
    (hef : Matched SameEntry es fs) (hfg : Matched SameEntry fs gs) : Matched SameEntry es gs := by
  refine .trans_of (fun e hem f hfm g hgm hef hfg => ⟨hef.1.trans hfg.1, ?_⟩) hef hfg
  exact hS.trans (he _ (mem_children_of_entry hem)) (hf _ (mem_children_of_entry hfm))
    (hg _ (mem_children_of_entry hgm)) hef.2 hfg.2

theorem Alike.symm_of (hcx : ∀ c ∈ x.children, S c) (hcy : ∀ c ∈ y.children, S c)
    (h : Alike x y) : Alike y x := by
  cases h with
  | null => exact .null
  | boolean => exact .boolean
  | long => exact .long
  | double h => exact .double (Double.same_symm h)
  | string => exact .string
  | path h => exact .path h.symm
  | enum => exact .enum
  | list h => exact .list (forall₂_symm_of_mem h fun x hx y hy => hS.symm (hcx x hx) (hcy y hy))
  | set h => exact .set (h.symm_of fun x hx y hy => hS.symm (hcx x hx) (hcy y hy))
  | map h => exact .map (matched_entries_symm hS hcx hcy h)
  | record h => exact .record (matched_entries_symm hS hcx hcy h)
  | custom => exact .custom

theorem Alike.trans_of (hcx : ∀ c ∈ x.children, S c) (hcy : ∀ c ∈ y.children, S c)
    (hcz : ∀ c ∈ z.children, S c) (hxy : Alike x y) (hyz : Alike y z) : Alike x z := by
  cases hxy with
  | double h =>
    cases hyz with
    | double h' => exact .double (Double.same_trans h h')
  | path h =>
    cases hyz with
    | path h' => exact .path (h.trans h')
  | list h =>
    cases hyz with
    | list h' =>
      refine .list (forall₂_trans_of_mem h h' fun x hx y hy z hz => ?_)
      exact hS.trans (hcx x hx) (hcy y hy) (hcz z hz)
  | set h =>
    cases hyz with
    | set h' =>
      refine .set (.trans_of (fun x hx y hy z hz => ?_) h h')
      exact hS.trans (hcx x hx) (hcy y hy) (hcz z hz)
  | map h =>
    cases hyz with
    | map h' => exact .map (matched_entries_trans hS hcx hcy hcz h h')
  | record h =>
    cases hyz with
    | record h' => exact .record (matched_entries_trans hS hcx hcy hcz h h')
  | custom =>
    cases hyz
    exact .custom
  | _ => exact hyz

end level

/-! ### All levels -/

/-- Equality of proper values is symmetric and transitive as far as the values are not too
large: their parts are smaller. -/
theorem partialEquiv_below : ∀ n : Nat,
    PartialEquiv fun v : Value α => v.Proper ∧ sizeOf v < n
  | 0 => ⟨fun hx => absurd hx.2 (Nat.not_lt_zero _), fun hx => absurd hx.2 (Nat.not_lt_zero _)⟩
  | n + 1 => by
    have ih : PartialEquiv fun v : Value α => v.Proper ∧ sizeOf v < n := partialEquiv_below n
    have hparts : ∀ v : Value α, v.Proper ∧ sizeOf v < n + 1 →
        ∀ c ∈ v.children, c.Proper ∧ sizeOf c < n := by
      intro v hv c hc
      have hlt := sizeOf_child hc
      exact ⟨hv.1.child hc, by omega⟩
    have halike : ∀ x y : Value α, x.Proper ∧ sizeOf x < n + 1 → y.Proper ∧ sizeOf y < n + 1 →
        (x.equals y = true ↔ Alike x y) := fun x y hx hy =>
      equals_iff_alike_of ih hx.1.self hy.1.self (hparts x hx) (hparts y hy)
    constructor
    · intro x y hx hy h
      rw [halike x y hx hy] at h
      rw [halike y x hy hx]
      exact h.symm_of ih (hparts x hx) (hparts y hy)
    · intro x y z hx hy hz hxy hyz
      rw [halike x y hx hy] at hxy
      rw [halike y z hy hz] at hyz
      rw [halike x z hx hz]
      exact hxy.trans_of ih (hparts x hx) (hparts y hy) (hparts z hz) hyz

/-- Equality of proper values is symmetric and transitive. -/
theorem partialEquiv_proper : PartialEquiv (Proper : Value α → Prop) where
  symm := by
    intro x y hx hy h
    have hsize : sizeOf x < sizeOf x + sizeOf y + 1 ∧ sizeOf y < sizeOf x + sizeOf y + 1 := by omega
    exact (partialEquiv_below _).symm ⟨hx, hsize.1⟩ ⟨hy, hsize.2⟩ h
  trans := by
    intro x y z hx hy hz hxy hyz
    have hsize : sizeOf x < sizeOf x + sizeOf y + sizeOf z + 1 ∧
        sizeOf y < sizeOf x + sizeOf y + sizeOf z + 1 ∧
        sizeOf z < sizeOf x + sizeOf y + sizeOf z + 1 := by omega
    exact (partialEquiv_below _).trans ⟨hx, hsize.1⟩ ⟨hy, hsize.2.1⟩ ⟨hz, hsize.2.2⟩ hxy hyz

theorem Proper.symm (hx : x.Proper) (hy : y.Proper) (h : x.equals y = true) :
    y.equals x = true :=
  partialEquiv_proper.symm hx hy h

theorem Proper.trans (hx : x.Proper) (hy : y.Proper) (hz : z.Proper) (hxy : x.equals y = true)
    (hyz : y.equals z = true) : x.equals z = true :=
  partialEquiv_proper.trans hx hy hz hxy hyz

/-- Proper values are equal if they are of one kind and made of equal parts. -/
theorem equals_iff_alike (hx : x.Proper) (hy : y.Proper) : x.equals y = true ↔ Alike x y :=
  equals_iff_alike_of partialEquiv_proper hx.self hy.self (fun _ hc => hx.child hc)
    fun _ hc => hy.child hc

/-! ### Values that equal themselves -/

/-- What equals something equals itself. -/
theorem Proper.self_of_equals (hx : x.Proper) (hy : y.Proper) (h : x.equals y = true) :
    x.equals x = true :=
  hx.trans hy hx h (hx.symm hy h)

/-- A value equals itself, one level at a time. -/
theorem alike_self_iff (hx : x.Proper) :
    Alike x x ↔ x.NotNaN ∧ ∀ c ∈ x.children, c.equals c = true := by
  constructor
  · intro h
    cases h with
    | double h => exact ⟨Double.same_self_iff.mp h, fun c hc => by cases hc⟩
    | list h => exact ⟨trivial, List.forall₂_same.mp h⟩
    | set h =>
      refine ⟨trivial, fun c hc => ?_⟩
      obtain ⟨d, hd, hcd⟩ := h.exists_partner c hc
      exact (hx.child hc).self_of_equals (hx.child hd) hcd
    | map h =>
      refine ⟨trivial, fun c hc => ?_⟩
      obtain ⟨e, he, rfl⟩ := List.mem_map.mp hc
      obtain ⟨f, hf, hef⟩ := h.exists_partner e he
      exact (hx.child hc).self_of_equals (hx.child (mem_children_of_entry hf)) hef.2
    | record h =>
      refine ⟨trivial, fun c hc => ?_⟩
      obtain ⟨e, he, rfl⟩ := List.mem_map.mp hc
      obtain ⟨f, hf, hef⟩ := h.exists_partner e he
      exact (hx.child hc).self_of_equals (hx.child (mem_children_of_entry hf)) hef.2
    | _ => exact ⟨trivial, fun c hc => by cases hc⟩
  · rintro ⟨hself, hparts⟩
    have hentry : ∀ es : List (String × Value α), (∀ c ∈ es.map (·.2), c.equals c = true) →
        Matched SameEntry es es := by
      intro es h
      refine ⟨es, List.forall₂_same.mpr fun e he => ⟨rfl, ?_⟩, .refl es⟩
      exact h e.2 (mem_children_of_entry he)
    cases x with
    | null => exact .null
    | boolean => exact .boolean
    | long => exact .long
    | double => exact .double (Double.same_self_iff.mpr hself)
    | string => exact .string
    | path => exact .path rfl
    | enum => exact .enum
    | list xs => exact .list (List.forall₂_same.mpr hparts)
    | set xs => exact .set ⟨xs, List.forall₂_same.mpr hparts, .refl xs⟩
    | map es => exact .map (hentry es hparts)
    | record name es => exact .record (hentry es hparts)
    | custom => exact .custom

/-- A proper value equals itself exactly if it is free of NaN. -/
theorem equals_self_iff {x : Value α} : x.Proper → (x.equals x = true ↔ x.NaNFree) := by
  induction x using induction with
  | parts x ih =>
    intro hx
    have hchildren : (∀ c ∈ x.children, c.equals c = true) ↔ ∀ c ∈ x.children, c.NaNFree :=
      forall₂_congr fun c hc => ih c hc (hx.child hc)
    rw [equals_iff_alike hx hx, alike_self_iff hx, hchildren, NaNFree, everywhere_iff]
    rfl

/-- **Equality of values is a partial equivalence.** On proper values it is symmetric and
transitive, and a value equals itself exactly if no double in it is a NaN. Equal values are of
one kind and have equal parts: lists in order; sets, maps and records in any order; paths with
the same components, and custom values that are one and the same object. -/
theorem equals_partialEquiv :
    (∀ x y : Value α, x.Proper → y.Proper → x.equals y = true → y.equals x = true) ∧
      (∀ x y z : Value α, x.Proper → y.Proper → z.Proper →
        x.equals y = true → y.equals z = true → x.equals z = true) ∧
      (∀ x : Value α, x.Proper → (x.equals x = true ↔ x.NaNFree)) ∧
      ∀ x y : Value α, x.Proper → y.Proper → (x.equals y = true ↔ Alike x y) := by
  refine ⟨fun x y hx hy => ?_, fun x y z hx hy hz => ?_, fun x => equals_self_iff,
    fun x y => equals_iff_alike⟩
  · exact hx.symm hy
  · exact hx.trans hy hz

/-- A folder: its size and the paths in it. -/
def folder (size : Double) (paths : List Path) : Value Unit :=
  .record "Folder" [("size", .double size), ("paths", .set (paths.map .path))]

theorem proper_folder {size : Double} {paths : List Path}
    (h : paths.Pairwise fun p q => p.same q = false) : (folder size paths).Proper := by
  have hset : (Value.set (paths.map .path) : Value Unit).Proper := by
    refine everywhere_iff.mpr ⟨?_, fun c hc => ?_⟩
    · refine List.pairwise_map.mpr (h.imp fun hpq => ?_)
      rwa [equals]
    · obtain ⟨p, -, rfl⟩ := List.mem_map.mp hc
      exact proper_of_no_children rfl trivial
  refine everywhere_iff.mpr ⟨by simp [folder, Distinct, Entries.keys], fun c hc => ?_⟩
  simp only [folder, children, List.map_cons, List.map_nil, List.mem_cons, List.not_mem_nil,
    or_false] at hc
  rcases hc with rfl | rfl
  · exact proper_of_no_children rfl trivial
  · exact hset

/-- Folders of size zero with the same two paths, written and listed in three ways; and one
whose size is a NaN, which differs from itself. -/
theorem equals_folders :
    (folder ⟨0⟩ [⟨"a/b"⟩, ⟨"c"⟩]).Proper ∧ (folder ⟨0x8000000000000000⟩ [⟨"c/"⟩, ⟨"a//b"⟩]).Proper ∧
      (folder ⟨0⟩ [⟨"a/./b"⟩, ⟨"c"⟩]).Proper ∧ (folder ⟨0x7ff8000000000000⟩ []).Proper ∧
      (folder ⟨0⟩ [⟨"a/b"⟩, ⟨"c"⟩]).equals (folder ⟨0x8000000000000000⟩ [⟨"c/"⟩, ⟨"a//b"⟩]) = true ∧
      (folder ⟨0x8000000000000000⟩ [⟨"c/"⟩, ⟨"a//b"⟩]).equals
        (folder ⟨0⟩ [⟨"a/./b"⟩, ⟨"c"⟩]) = true ∧
      (folder ⟨0x8000000000000000⟩ [⟨"c/"⟩, ⟨"a//b"⟩]).equals
        (folder ⟨0⟩ [⟨"a/b"⟩, ⟨"c"⟩]) = true ∧
      (folder ⟨0⟩ [⟨"a/b"⟩, ⟨"c"⟩]).equals (folder ⟨0⟩ [⟨"a/./b"⟩, ⟨"c"⟩]) = true ∧
      ¬ (folder ⟨0x7ff8000000000000⟩ []).NaNFree := by
  have hfirst : (folder ⟨0⟩ [⟨"a/b"⟩, ⟨"c"⟩]).Proper := proper_folder (by decide)
  have hsecond : (folder ⟨0x8000000000000000⟩ [⟨"c/"⟩, ⟨"a//b"⟩]).Proper :=
    proper_folder (by decide)
  have hthird : (folder ⟨0⟩ [⟨"a/./b"⟩, ⟨"c"⟩]).Proper := proper_folder (by decide)
  have hnan : (folder ⟨0x7ff8000000000000⟩ []).Proper := proper_folder .nil
  have h12 : (folder ⟨0⟩ [⟨"a/b"⟩, ⟨"c"⟩]).equals
      (folder ⟨0x8000000000000000⟩ [⟨"c/"⟩, ⟨"a//b"⟩]) = true := by decide +kernel
  have h23 : (folder ⟨0x8000000000000000⟩ [⟨"c/"⟩, ⟨"a//b"⟩]).equals
      (folder ⟨0⟩ [⟨"a/./b"⟩, ⟨"c"⟩]) = true := by decide +kernel
  obtain ⟨hsymm, htrans, hself, -⟩ := equals_partialEquiv (α := Unit)
  refine ⟨hfirst, hsecond, hthird, hnan, h12, h23, hsymm _ _ hfirst hsecond h12,
    htrans _ _ _ hfirst hsecond hthird h12 h23, ?_⟩
  rw [← hself _ hnan]
  decide +kernel

end Value
end TypedConfig
