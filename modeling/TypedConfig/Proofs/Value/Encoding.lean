/-
# Values written out as nodes

Every value but an object of the application can be written out as a node: a
scalar as the node of its kind, constants and paths as texts, lists and sets as
arrays, maps and records as maps. Each part of the value gets a node of its own,
and where these nodes are is free: `place` says it for the site of each part.

Key definitions: `Value.encode`.
Key theorems: `Value.encodeElements_eq`, `Value.encodeEntries_eq`,
`Value.keys_encodeEntries`.
-/
import TypedConfig.Decoder
import TypedConfig.Proofs.Entries

namespace TypedConfig

variable {α : Type}

namespace Value

mutual

/-- The node that writes out a value at `site`. There is none for an object of the
application. -/
def encode (place : Site → Place) (site : Site) : Value α → Node
  | .null => .null (place site)
  | .boolean value => .boolean value (place site)
  | .long value => .long value (place site)
  | .double value => .double value (place site)
  | .string value | .enum value => .string value (place site)
  | .path value => .string value.text (place site)
  | .list elements | .set elements =>
    .array (encodeElements place site 0 elements) (place site)
  | .map entries | .record _ entries => .map (encodeEntries place site 0 entries) (place site)
  | .custom .. => .undefined

/-- The nodes of elements, the first of which has the given number. -/
def encodeElements (place : Site → Place) (site : Site) (i : Nat) :
    List (Value α) → List Node
  | [] => []
  | x :: xs => encode place (i :: site) x :: encodeElements place site (i + 1) xs

/-- The nodes of entries under their keys; the first entry has the given number. -/
def encodeEntries (place : Site → Place) (site : Site) (i : Nat) :
    List (String × Value α) → List (String × Node)
  | [] => []
  | (key, x) :: es => (key, encode place (i :: site) x) :: encodeEntries place site (i + 1) es

end

variable {place : Site → Place}

theorem encodeElements_eq (site : Site) : ∀ (xs : List (Value α)) (start : Nat),
    encodeElements place site start xs =
      xs.mapIdx fun i x => x.encode place ((i + start) :: site)
  | [], _ => rfl
  | x :: xs, start => by
    rw [encodeElements, encodeElements_eq site xs (start + 1), List.mapIdx_cons]
    simp only [Nat.zero_add, Nat.add_assoc, Nat.add_comm 1]

theorem encodeEntries_eq (site : Site) : ∀ (es : List (String × Value α)) (start : Nat),
    encodeEntries place site start es =
      es.mapIdx fun i e => (e.1, e.2.encode place ((i + start) :: site))
  | [], _ => rfl
  | (key, x) :: es, start => by
    rw [encodeEntries, encodeEntries_eq site es (start + 1), List.mapIdx_cons]
    simp only [Nat.zero_add, Nat.add_assoc, Nat.add_comm 1]

/-- The entries are written out under their own keys. -/
theorem keys_encodeEntries (site : Site) : ∀ (es : List (String × Value α)) (start : Nat),
    Entries.keys (encodeEntries place site start es) = Entries.keys es
  | [], _ => rfl
  | (key, x) :: es, start => by
    rw [encodeEntries, Entries.keys_cons, keys_encodeEntries site es (start + 1),
      Entries.keys_cons]

end Value

end TypedConfig
