/-
# Outcomes that gather failures

Parts that do not depend on each other are all attempted, and an attempt that
fails reports the failures of every part, in the order of the parts.

Key definitions: `Outcome`, `Outcome.zip`, `Gathering`, `Outcome.sequence`, `Outcome.wrap`.
-/
import TypedConfig.Failure

namespace TypedConfig

/-- Either a result or the failures that prevented it. -/
abbrev Outcome (α : Type) := Except Failures α

/-- What has been gathered from outcomes in order: the results in front of the first
failure, and once something failed all failures. -/
structure Gathering (α : Type) where
  results : Array α
  failures? : Option Failures

namespace Gathering

variable {α : Type}

/-- Nothing is gathered yet. -/
def start : Gathering α := ⟨#[], none⟩

/-- Gathers one more outcome; a result behind a failure is not kept. -/
def add (gathering : Gathering α) (o : Outcome α) : Gathering α :=
  match o, gathering.failures? with
  | .ok a, none => { gathering with results := gathering.results.push a }
  | .ok _, some _ => gathering
  | .error fs, some gs => { gathering with failures? := some (gs ++ fs) }
  | .error fs, none => { gathering with failures? := some fs }

/-- What the outcomes come to that were gathered. -/
def outcome (gathering : Gathering α) : Outcome (List α) :=
  match gathering.failures? with
  | some fs => .error fs
  | none => .ok gathering.results.toList

end Gathering

namespace Outcome

variable {α β : Type}

/-- The outcome that fails for one cause. -/
def fail (failure : Failure) : Outcome α := .error (NonEmpty.one failure)

/-- Both results, or the failures of both parts with those of the first in front. -/
def zip : Outcome α → Outcome β → Outcome (α × β)
  | .ok a, .ok b => .ok (a, b)
  | .error fs, .ok _ => .error fs
  | .ok _, .error gs => .error gs
  | .error fs, .error gs => .error (fs ++ gs)

/-- All results in order, or the failures of all parts in order. -/
def sequence (os : List (Outcome α)) : Outcome (List α) :=
  (os.foldl Gathering.add .start).outcome

/-- Gathers the failures under one failure that says where they arose. -/
def wrap (cause : Failures → Failure) : Outcome α → Outcome α
  | .ok a => .ok a
  | .error fs => fail (cause fs)

end Outcome
end TypedConfig
