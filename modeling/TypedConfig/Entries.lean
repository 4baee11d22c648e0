/-
# Entries in order of insertion

Maps keep their entries in the order in which the keys came first; a key that
comes again replaces the value at its old place.

Key definitions: `Entries.insert`, `Entries.ofPairs`, `Entries.keys`.
-/

namespace TypedConfig

/-- Named values in order of insertion. -/
abbrev Entries (β : Type) := List (String × β)

namespace Entries

variable {β : Type}

/-- Puts `value` under `key`: in place of the old value, or else at the end. -/
def insert (key : String) (value : β) : Entries β → Entries β
  | [] => [(key, value)]
  | (k, v) :: rest => if k = key then (k, value) :: rest else (k, v) :: insert key value rest

/-- The entries that result from inserting the pairs one after another. -/
def ofPairs (pairs : List (String × β)) : Entries β :=
  pairs.foldl (fun entries pair => insert pair.1 pair.2 entries) []

/-- The keys in order. -/
def keys (entries : Entries β) : List String := entries.map (·.1)

end Entries
end TypedConfig
