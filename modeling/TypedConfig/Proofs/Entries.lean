/-
# The laws of entries in order of insertion

Entries made of pairs hold each key once, in the order in which the keys came
first (`keys_ofPairs_nodup`), and nothing but the pairs (`mem_of_mem_ofPairs`).
Pairs whose keys differ are left as they are (`ofPairs_eq_self`).

Key theorems: `Entries.keys_ofPairs_nodup`, `Entries.mem_of_mem_ofPairs`,
`Entries.ofPairs_eq_self`, `Entries.isSome_lookup_iff`,
`Entries.lookup_insert_self`, `Entries.lookup_insert_of_ne`,
`Entries.lookup_map_values`.
-/
import TypedConfig.Entries

namespace TypedConfig
namespace Entries

variable {β : Type}

theorem keys_cons (key : String) (value : β) (entries : Entries β) :
    keys ((key, value) :: entries) = key :: keys entries := rfl

/-- Inserting adds the key at the end, or leaves the keys as they are. -/
theorem keys_insert (key : String) (value : β) : ∀ entries : Entries β,
    keys (insert key value entries) =
      if key ∈ keys entries then keys entries else keys entries ++ [key]
  | [] => by simp [insert, keys]
  | (k, v) :: rest => by
    have ih := keys_insert key value rest
    by_cases hk : k = key
    · simp [insert, hk, keys]
    · rw [insert, if_neg hk, keys_cons, ih, keys_cons]
      by_cases hm : key ∈ keys rest <;> simp [hm, Ne.symm hk]

theorem keys_insert_nodup {key : String} {value : β} {entries : Entries β}
    (h : (keys entries).Nodup) : (keys (insert key value entries)).Nodup := by
  rw [keys_insert]
  split
  · exact h
  · rename_i hm
    rw [List.nodup_append]
    refine ⟨h, by simp, fun a ha b hb => ?_⟩
    rw [List.mem_singleton] at hb
    rintro rfl
    exact hm (hb ▸ ha)

/-- A key that is not there yet is put at the end. -/
theorem insert_of_not_mem {key : String} {value : β} : ∀ {entries : Entries β},
    key ∉ keys entries → insert key value entries = entries ++ [(key, value)]
  | [], _ => rfl
  | (k, v) :: rest, h => by
    rw [keys_cons, List.mem_cons, not_or] at h
    rw [insert, if_neg (Ne.symm h.1), insert_of_not_mem h.2, List.cons_append]

theorem mem_of_mem_insert {key : String} {value : β} {e : String × β} :
    ∀ {entries : Entries β}, e ∈ insert key value entries → e = (key, value) ∨ e ∈ entries
  | [], h => by
    rw [insert, List.mem_singleton] at h
    exact Or.inl h
  | (k, v) :: rest, h => by
    by_cases hk : k = key
    · rw [insert, if_pos hk, List.mem_cons] at h
      rcases h with rfl | h
      · exact Or.inl (by rw [hk])
      · exact Or.inr (List.mem_cons_of_mem _ h)
    · rw [insert, if_neg hk, List.mem_cons] at h
      rcases h with rfl | h
      · exact Or.inr List.mem_cons_self
      · rcases mem_of_mem_insert h with h | h
        · exact Or.inl h
        · exact Or.inr (List.mem_cons_of_mem _ h)

/-! ### Entries made of pairs -/

/-- Inserting one pair after another into entries that are there already. -/
abbrev insertAll (entries : Entries β) (pairs : List (String × β)) : Entries β :=
  pairs.foldl (fun entries pair => insert pair.1 pair.2 entries) entries

theorem keys_insertAll_nodup : ∀ (pairs : List (String × β)) {entries : Entries β},
    (keys entries).Nodup → (keys (insertAll entries pairs)).Nodup
  | [], _, h => h
  | _ :: pairs, _, h => keys_insertAll_nodup pairs (keys_insert_nodup h)

/-- No key is held twice. -/
theorem keys_ofPairs_nodup (pairs : List (String × β)) : (keys (ofPairs pairs)).Nodup :=
  keys_insertAll_nodup pairs List.nodup_nil

theorem mem_of_mem_insertAll {e : String × β} :
    ∀ (pairs : List (String × β)) (entries : Entries β),
      e ∈ insertAll entries pairs → e ∈ entries ∨ e ∈ pairs
  | [], _, h => Or.inl h
  | (key, value) :: pairs, entries, h => by
    rcases mem_of_mem_insertAll pairs (insert key value entries) h with h | h
    · rcases mem_of_mem_insert h with rfl | h
      · exact Or.inr List.mem_cons_self
      · exact Or.inl h
    · exact Or.inr (List.mem_cons_of_mem _ h)

/-- Every entry is one of the pairs. -/
theorem mem_of_mem_ofPairs {pairs : List (String × β)} {e : String × β}
    (h : e ∈ ofPairs pairs) : e ∈ pairs :=
  (mem_of_mem_insertAll pairs [] h).resolve_left List.not_mem_nil

theorem insertAll_eq_append : ∀ {pairs : List (String × β)} {entries : Entries β},
    (keys (entries ++ pairs)).Nodup → insertAll entries pairs = entries ++ pairs
  | [], entries, _ => (List.append_nil entries).symm
  | (key, value) :: pairs, entries, h => by
    have hkey : key ∉ keys entries := by
      rw [keys, List.map_append, List.nodup_append] at h
      exact fun hm => h.2.2 key hm key List.mem_cons_self rfl
    have hrest : (keys ((entries ++ [(key, value)]) ++ pairs)).Nodup := by
      rwa [List.append_assoc]
    calc insertAll entries ((key, value) :: pairs)
        = insertAll (entries ++ [(key, value)]) pairs := by
          rw [insertAll, List.foldl_cons, insert_of_not_mem hkey]
      _ = entries ++ [(key, value)] ++ pairs := insertAll_eq_append hrest
      _ = entries ++ (key, value) :: pairs := by rw [List.append_assoc, List.singleton_append]

/-- Pairs with distinct keys are entries as they stand. -/
theorem ofPairs_eq_self {pairs : List (String × β)} (h : (keys pairs).Nodup) :
    ofPairs pairs = pairs :=
  insertAll_eq_append (by rwa [List.nil_append])

/-! ### Looking up keys -/

/-- Something is found under a key exactly if the key is there. -/
theorem isSome_lookup_iff {key : String} : ∀ {entries : Entries β},
    (entries.lookup key).isSome = true ↔ key ∈ keys entries
  | [] => by simp [keys]
  | (k, v) :: rest => by
    have ih : (rest.lookup key).isSome = true ↔ key ∈ keys rest := isSome_lookup_iff
    rw [keys_cons, List.mem_cons, List.lookup_cons]
    by_cases hk : key = k
    · simp [hk]
    · rw [beq_false_of_ne hk]
      simp [hk, ih]

theorem lookup_eq_none_of_not_mem {key : String} {entries : Entries β}
    (h : key ∉ keys entries) : entries.lookup key = none := by
  rw [← isSome_lookup_iff] at h
  exact Option.not_isSome_iff_eq_none.mp h

theorem lookup_cons_of_ne {key k : String} (h : key ≠ k) (value : β) (entries : Entries β) :
    List.lookup key ((k, value) :: entries) = entries.lookup key := by
  rw [List.lookup_cons, beq_false_of_ne h]

theorem lookup_insert_self (key : String) (value : β) : ∀ entries : Entries β,
    (insert key value entries).lookup key = some value
  | [] => List.lookup_cons_self
  | (k, v) :: rest => by
    by_cases hk : k = key
    · rw [insert, if_pos hk, hk, List.lookup_cons_self]
    · rw [insert, if_neg hk, lookup_cons_of_ne (Ne.symm hk), lookup_insert_self key value rest]

/-- Under other keys the same is found as before. -/
theorem lookup_insert_of_ne {key other : String} (h : other ≠ key) (value : β) :
    ∀ entries : Entries β, (insert key value entries).lookup other = entries.lookup other
  | [] => lookup_cons_of_ne h value []
  | (k, v) :: rest => by
    by_cases hk : k = key
    · rw [insert, if_pos hk, hk, lookup_cons_of_ne h, lookup_cons_of_ne h]
    · rw [insert, if_neg hk, List.lookup_cons, List.lookup_cons,
        lookup_insert_of_ne h value rest]

/-- An entry is found under its key if no other has the same. -/
theorem lookup_of_mem {e : String × β} : ∀ {entries : Entries β}, (keys entries).Nodup →
    e ∈ entries → entries.lookup e.1 = some e.2
  | (k, v) :: rest, h, he => by
    rw [keys_cons, List.nodup_cons] at h
    rcases List.mem_cons.mp he with rfl | he
    · simp
    · have hne : e.1 ≠ k := fun hk => h.1 (hk ▸ List.mem_map.mpr ⟨e, he, rfl⟩)
      rw [List.lookup_cons, beq_false_of_ne hne]
      exact lookup_of_mem h.2 he

/-- What is found under a key is an entry with that key. -/
theorem mem_of_lookup {key : String} {value : β} {entries : Entries β}
    (h : entries.lookup key = some value) : (key, value) ∈ entries := by
  obtain ⟨before, after, he, -⟩ := List.lookup_eq_some_iff.mp h
  rw [he]
  exact List.mem_append_right before List.mem_cons_self

/-- Rewriting every value rewrites the one that is found under a key. -/
theorem lookup_map_values {γ : Type} (entries : Entries β) (key : String) (f : β → γ) :
    (entries.map fun e => (e.1, f e.2)).lookup key = (entries.lookup key).map f := by
  induction entries with
  | nil => rfl
  | cons e rest ih =>
    rw [List.map_cons, List.lookup_cons, List.lookup_cons, ih]
    cases key == e.1 <;> rfl

end Entries
end TypedConfig
