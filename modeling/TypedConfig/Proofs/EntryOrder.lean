/-
# Entries in another order

Entries that hold the same keys with related values, in any order, give related
values under each key (`Entries.Agreeing`). That is what a tree and a copy of it
offer in which the entries of maps stand in another order (`Node.Reordered`): the
two are of one kind at one place, and a field that is looked for is found in both
or in neither.

Key definitions: `Entries.Beside`, `Entries.Agreeing`, `Node.Reordered`.
Key theorems: `Entries.agreeing_of_matched`, `Node.Reordered.atKey`.
-/
import TypedConfig.Node
import TypedConfig.Proofs.Entries
import TypedConfig.Proofs.Matching

namespace TypedConfig

/-! ### Entries beside each other -/

namespace Entries

variable {β γ : Type} {r : β → γ → Prop} {es : Entries β} {fs : Entries γ}

/-- Two entries have one key and related values. -/
inductive Beside (r : β → γ → Prop) : String × β → String × γ → Prop
  | intro (key : String) {b : β} {c : γ} (h : r b c) : Beside r (key, b) (key, c)

theorem Beside.key_eq {e : String × β} {f : String × γ} (h : Beside r e f) : e.1 = f.1 := by
  cases h
  rfl

/-- Entries with the same keys and related values, in whatever order: one by one, and as they
are found under a key. -/
structure Agreeing (r : β → γ → Prop) (es : Entries β) (fs : Entries γ) : Prop where
  matched : Matched (Beside r) es fs
  lookup : ∀ key : String, Option.Rel r (es.lookup key) (fs.lookup key)

theorem keys_of_forall₂ (h : List.Forall₂ (Beside r) es fs) : keys es = keys fs := by
  induction h with
  | nil => rfl
  | cons hef _ ih => exact congrArg₂ List.cons hef.key_eq ih

theorem lookup_of_forall₂ (h : List.Forall₂ (Beside r) es fs) (key : String) :
    Option.Rel r (es.lookup key) (fs.lookup key) := by
  induction h with
  | nil => exact .none
  | cons hef _ ih =>
    obtain ⟨k, hr⟩ := hef
    rw [List.lookup_cons, List.lookup_cons]
    cases key == k with
    | true => exact .some hr
    | false => exact ih

/-- Under a key that is held once the same is found in whatever order the entries stand. -/
theorem lookup_of_perm {fs : Entries β} (hk : (keys es).Nodup) (h : es.Perm fs) (key : String) :
    es.lookup key = fs.lookup key := by
  have hk' : (keys fs).Nodup := (h.map _).nodup_iff.mp hk
  cases he : es.lookup key with
  | some value => exact (lookup_of_mem hk' (h.subset (mem_of_lookup he))).symm
  | none =>
    refine (lookup_eq_none_of_not_mem fun hm => ?_).symm
    have hm' : key ∈ keys es := (h.map _).symm.subset hm
    rw [← isSome_lookup_iff, he] at hm'
    cases hm'

theorem agreeing_of_forall₂ (h : List.Forall₂ (Beside r) es fs) : Agreeing r es fs :=
  ⟨.of_forall₂ h, lookup_of_forall₂ h⟩

/-- Entries that match are related if no key is held twice. -/
theorem agreeing_of_matched (hk : (keys es).Nodup) (h : Matched (Beside r) es fs) :
    Agreeing r es fs := by
  refine ⟨h, fun key => ?_⟩
  obtain ⟨middle, hr, hp⟩ := h
  have hk' : (keys middle).Nodup := keys_of_forall₂ hr ▸ hk
  rw [← lookup_of_perm hk' hp key]
  exact lookup_of_forall₂ hr key

theorem forall₂_insert (key : String) {b : β} {c : γ} (hbc : r b c)
    (h : List.Forall₂ (Beside r) es fs) :
    List.Forall₂ (Beside r) (insert key b es) (insert key c fs) := by
  induction h with
  | nil => exact .cons (.intro key hbc) .nil
  | cons hef hrest ih =>
    obtain ⟨k, hr⟩ := hef
    rw [insert, insert]
    split
    · exact .cons (.intro k hbc) hrest
    · exact .cons (.intro k hr) ih

theorem forall₂_insertAll {pairs : List (String × β)} {pairs' : List (String × γ)}
    (hp : List.Forall₂ (Beside r) pairs pairs') :
    ∀ {es : Entries β} {fs : Entries γ}, List.Forall₂ (Beside r) es fs →
      List.Forall₂ (Beside r) (insertAll es pairs) (insertAll fs pairs') := by
  induction hp with
  | nil => exact id
  | cons hef _ ih =>
    obtain ⟨key, hr⟩ := hef
    exact fun h => ih (forall₂_insert key hr h)

/-- Entries that are made of pairs beside each other are beside each other. -/
theorem forall₂_ofPairs {pairs : List (String × β)} {pairs' : List (String × γ)}
    (h : List.Forall₂ (Beside r) pairs pairs') :
    List.Forall₂ (Beside r) (ofPairs pairs) (ofPairs pairs') :=
  forall₂_insertAll h .nil

end Entries

/-! ### Trees -/

namespace Node

/-- Whether the node holds others. -/
def isContainer : Node → Bool
  | .map .. => true
  | .array .. => true
  | _ => false

/-- The second tree is the first with the entries of maps, at any depth, in another order. A
map holds each key once. -/
inductive Reordered : Node → Node → Prop
  | scalar {node : Node} (h : node.isContainer = false) : Reordered node node
  | array {xs ys : List Node} {place : Place} (h : List.Forall₂ Reordered xs ys) :
      Reordered (.array xs place) (.array ys place)
  | map {es middle fs : List (String × Node)} {place : Place}
      (hk : (Entries.keys es).Nodup) (h : List.Forall₂ (Entries.Beside Reordered) es middle)
      (hp : middle.Perm fs) : Reordered (.map es place) (.map fs place)

namespace Reordered

variable {node node' : Node}

theorem place?_eq (h : node.Reordered node') : node'.place? = node.place? := by
  cases h <;> rfl

theorem isDefined_eq (h : node.Reordered node') : node'.isDefined = node.isDefined := by
  cases h <;> rfl

/-- The children under a key are reordered, too, or both are absent. -/
theorem atKey (h : node.Reordered node') (key : String) :
    (node.atKey key).Reordered (node'.atKey key) := by
  have habsent : undefined.Reordered undefined := .scalar rfl
  cases h with
  | scalar h =>
    cases node with
    | map entries place => cases h
    | _ => exact habsent
  | array h => exact habsent
  | @map es middle fs place hk h hp =>
    have hfound : Option.Rel Reordered (es.lookup key) (fs.lookup key) :=
      (Entries.agreeing_of_matched hk ⟨middle, h, hp⟩).lookup key
    rw [Node.atKey, Node.atKey]
    generalize es.lookup key = child?, fs.lookup key = child'? at hfound ⊢
    cases hfound with
    | some hchild => exact hchild
    | none => exact habsent

end Reordered
end Node
end TypedConfig
