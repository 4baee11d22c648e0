/-
# Reports lose nothing

The failures at every depth are visited from top to bottom, each before those that it
holds (`Failure.visits`). A report has one line for each visit and nothing else, so it
is the outline of the descriptions that is written there, and it is read back from the
text (`Outline.readLines_written`). The machine-readable form is a tree of the same
form, with one object for each failure (`Failure.Mirrors`).

All of this is by induction on a list of failures through what the first of them holds
and what follows it (`Failure.outline.induct`). The kinds of failures are told apart
only where a function of the model is first taken to pieces (`Failure.lines_eq`,
`Failure.toJson_eq`).

Key definitions: `Failure.visits`, `Failure.outline`, `Failure.Mirrors`,
`Failures.OneLined`.
Key theorems: `Failure.mem_visits_iff`, `Failure.linesOf_eq_visits`,
`Failure.rows_outline`, `Failure.forall₂_mirrors`, `Failures.report_lossless`.
-/
import Mathlib.Data.List.Forall2
import TypedConfig.Failure.Report
import TypedConfig.Proofs.Failure
import TypedConfig.Proofs.Outline

namespace TypedConfig
namespace Failure

/-! ### All failures from top to bottom -/

/-- The failures that the failure holds; none if it is not of a wrapping kind. -/
def parts (failure : Failure) : List Failure :=
  match failure.children? with
  | some children => children.toList
  | none => []

theorem holds_iff {outer inner : Failure} : outer.Holds inner ↔ inner ∈ outer.parts := by
  rw [Holds, parts]
  cases outer.children? <;> simp

theorem sizeOf_toList (failures : Failures) : sizeOf failures.toList = sizeOf failures := rfl

theorem sizeOf_parts_le (failure : Failure) : sizeOf failure.parts ≤ sizeOf failure := by
  cases failure <;> simp only [parts, children?, sizeOf_toList, List.nil.sizeOf_spec] <;>
    simp <;> omega

theorem sizeOf_parts_lt (failure : Failure) (rest : List Failure) :
    sizeOf failure.parts < sizeOf (failure :: rest) := by
  have := sizeOf_parts_le failure
  simp only [List.cons.sizeOf_spec]
  omega

/-- The failures and all that they hold, each with its depth and in front of what it holds. -/
def visits (depth : Nat) : List Failure → List (Nat × Failure)
  | [] => []
  | failure :: rest =>
    (depth, failure) :: (visits (depth + 1) failure.parts ++ visits depth rest)
termination_by failures => sizeOf failures
decreasing_by
  · exact sizeOf_parts_lt failure rest
  · decreasing_tactic

/-- The descriptions of the failures, each above those of what the failure holds. -/
def outline : List Failure → Outline
  | [] => .nil
  | failure :: rest => .cons failure.description (outline failure.parts) (outline rest)
termination_by failures => sizeOf failures
decreasing_by
  · exact sizeOf_parts_lt failure rest
  · decreasing_tactic

/-- The visits are those of the failures and of all that is inside them. -/
theorem mem_visits_iff {inner : Failure} (failures : List Failure) (depth : Nat) :
    (∃ d, (d, inner) ∈ visits depth failures) ↔ ∃ failure ∈ failures, failure.Part inner := by
  fun_induction visits depth failures with
  | case1 => simp
  | case2 depth failure rest ihparts ihrest =>
    have hpart : failure.Part inner ↔ failure = inner ∨
        ∃ part ∈ failure.parts, part.Part inner := by
      rw [Part, Relation.ReflTransGen.cases_head_iff]
      simp only [holds_iff]
    simp only [List.mem_cons, List.mem_append, exists_or, ihparts, ihrest, Prod.mk.injEq,
      exists_eq_left, exists_eq_or_imp, hpart]
    grind

theorem rows_outline (failures : List Failure) (depth : Nat) :
    (outline failures).rows depth =
      (visits depth failures).map fun visit => (visit.1, visit.2.description) := by
  fun_induction visits depth failures with
  | case1 => rw [outline, Outline.rows, List.map_nil]
  | case2 depth failure rest ihparts ihrest =>
    rw [outline, Outline.rows, ihparts, ihrest, List.map_cons, List.map_append]

/-! ### Lines -/

theorem toList_line (depth : Nat) (failure : Failure) :
    (line depth failure).toList = Outline.written (depth, failure.description) := by
  simp [line, Outline.written]

theorem lines_eq (depth : Nat) (failure : Failure) :
    failure.lines depth = line depth failure :: linesOf (depth + 1) failure.parts := by
  cases failure <;> rfl

/-- There is one line for each visit. -/
theorem linesOf_eq_visits (failures : List Failure) (depth : Nat) :
    linesOf depth failures = (visits depth failures).map fun visit => line visit.1 visit.2 := by
  fun_induction visits depth failures with
  | case1 => rfl
  | case2 depth failure rest ihparts ihrest =>
    rw [linesOf, lines_eq, ihparts, ihrest, List.map_cons, List.map_append, List.cons_append]

/-! ### Objects -/

/-- The names of the kinds that hold other failures. -/
def wrapperKinds : List String :=
  ["CollectionElementErrors", "FieldFailure", "StructuredDecodeFailure", "MultipleFailures"]

/-- The members, of which no two have the same name, say of the failure what it says itself;
its position is among them if it is known. -/
structure Describes (members : List (String × Json)) (failure : Failure) : Prop where
  distinct : (members.map Prod.fst).Nodup
  code : members.lookup "code" = some (.string failure.code)
  kind : members.lookup "kind" = some (.string failure.kindName)
  message : members.lookup "message" = some (.string failure.message)
  path : members.lookup "path" = failure.path?.map Json.string
  position :
    members.lookup "pos" = (failure.position?.filter Position.isKnown).map Position.toJson

/-- The value is the object of the failure, with an array of the objects of what it holds
exactly if it is of a wrapping kind. -/
inductive Mirrors : Json → Failure → Prop where
  | single {members : List (String × Json)} {failure : Failure}
    (describes : Describes members failure) (kind : failure.kindName ∉ wrapperKinds)
    (none_inside : members.lookup "failures" = none) : Mirrors (.object members) failure
  | wrapper {members : List (String × Json)} {failure : Failure} {children : Failures}
    {jsons : List Json} (describes : Describes members failure)
    (kind : failure.kindName ∈ wrapperKinds) (holds : failure.children? = some children)
    (inside : members.lookup "failures" = some (.array jsons))
    (mirrors : List.Forall₂ Mirrors jsons children.toList) : Mirrors (.object members) failure

theorem children?_isSome_iff (failure : Failure) :
    failure.children?.isSome = true ↔ failure.kindName ∈ wrapperKinds := by
  cases failure <;> simp [children?, kindName, wrapperKinds]

/-- The member with what a failure holds stands behind all others. -/
theorem toJson_eq (failure : Failure) : failure.toJson = .object (failure.members ++
    (failure.children?.map fun children =>
      ("failures", .array (toJsonList children.toList))).toList) := by
  cases failure <;> simp [toJson, children?, NonEmpty.toList, toJsonList]

/-- The members behind the first three are there only if there is something to say. -/
theorem members_eq (failure : Failure) : failure.members =
    [("code", .string failure.code), ("kind", .string failure.kindName),
      ("message", .string failure.message)] ++
    (failure.path?.map fun path => ("path", .string path)).toList ++
    ((failure.position?.filter Position.isKnown).map fun p => ("pos", p.toJson)).toList := by
  unfold members
  rcases failure.path? with _ | path <;> rcases failure.position? with _ | _ | _ <;> rfl

theorem describes_members (failure : Failure) (inside : Option Json) :
    Describes (failure.members ++ (inside.map fun json => ("failures", json)).toList) failure ∧
      (failure.members ++ (inside.map fun json => ("failures", json)).toList).lookup "failures" =
        inside := by
  -- each of the three members that may be missing is there or not; then all names are known
  cases hpath : failure.path? <;>
    cases hposition : failure.position?.filter Position.isKnown <;> cases inside <;>
      (refine ⟨⟨?_, ?_, ?_, ?_, ?_, ?_⟩, ?_⟩ <;>
        simp [members_eq, hpath, hposition, List.lookup_cons])

/-- **The machine-readable forms of failures have the form of the failures.** -/
theorem forall₂_mirrors (failures : List Failure) :
    List.Forall₂ Mirrors (toJsonList failures) failures := by
  induction failures using outline.induct with
  | case1 => exact .nil
  | case2 failure rest ihparts ihrest =>
    refine .cons ?_ ihrest
    obtain ⟨hdescribes, hinside⟩ := describes_members failure
      (failure.children?.map fun children => .array (toJsonList children.toList))
    have hkind := failure.children?_isSome_iff
    rw [Option.map_map] at hdescribes hinside
    rw [toJson_eq]
    cases hchildren : failure.children? with
    | none =>
      rw [hchildren] at hdescribes hinside hkind
      exact .single hdescribes (fun h => absurd (hkind.mpr h) (by decide)) hinside
    | some children =>
      rw [hchildren] at hdescribes hinside hkind
      rw [parts, hchildren] at ihparts
      exact .wrapper hdescribes (hkind.mp rfl) hchildren hinside ihparts

end Failure

namespace Failures

/-- No description, at any depth, has a line break. -/
def OneLined (failures : Failures) : Prop :=
  ∀ failure ∈ failures.toList, ∀ inner, failure.Part inner → '\n' ∉ inner.description.toList

/-- The failures at every depth from top to bottom; those of the collection have depth nought. -/
def visits (failures : Failures) : List (Nat × Failure) := Failure.visits 0 failures.toList

/-- The outline of the descriptions. -/
def outline (failures : Failures) : Outline := Failure.outline failures.toList

variable {failures : Failures}

/-- The line of a visit: four spaces for each level of depth, a bullet and the description. -/
def written (visit : Nat × Failure) : List Char :=
  Outline.written (visit.1, visit.2.description)

theorem toList_report (failures : Failures) :
    failures.report.toList = (failures.visits.map written).flatMap (· ++ ['\n']) := by
  rw [report, String.toList_join, Failure.linesOf_eq_visits, visits]
  simp [List.flatMap_map, Failure.toList_line, written]

theorem map_written_visits (failures : Failures) :
    failures.visits.map written = (failures.outline.rows 0).map Outline.written := by
  rw [outline, Failure.rows_outline, List.map_map]
  rfl

theorem oneLined_iff :
    failures.OneLined ↔ ∀ visit ∈ failures.visits, '\n' ∉ visit.2.description.toList := by
  constructor
  · rintro h ⟨depth, inner⟩ hvisit
    obtain ⟨failure, hf, hpart⟩ := (Failure.mem_visits_iff _ 0).mp ⟨depth, hvisit⟩
    exact h failure hf inner hpart
  · intro h failure hf inner hpart
    obtain ⟨depth, hvisit⟩ := (Failure.mem_visits_iff _ 0).mpr ⟨failure, hf, hpart⟩
    exact h (depth, inner) hvisit

/-- A report is taken apart into its lines. -/
theorem OneLined.pieces_report (h : failures.OneLined) :
    Text.pieces '\n' failures.report.toList = failures.visits.map written ++ [[]] := by
  rw [toList_report]
  refine Text.pieces_flatMap fun line hline => ?_
  obtain ⟨visit, hvisit, rfl⟩ := List.mem_map.mp hline
  exact Outline.not_mem_written (oneLined_iff.mp h visit hvisit)

/-- The outline of the descriptions is read back from a report. -/
theorem OneLined.readLines_report (h : failures.OneLined) :
    Outline.readLines failures.report = failures.outline :=
  Outline.readLines_written (h.pieces_report.trans (by rw [map_written_visits]))

/-- **Reports lose nothing.** A report has exactly one line for each failure at every depth, from
top to bottom, and the outline of the descriptions is read back from it, so that it is the same
for two collections with the same report; and the machine-readable form has one object for each
failure, in a tree of the same form. -/
theorem report_lossless (failures : Failures) :
    (failures.OneLined →
      Text.pieces '\n' failures.report.toList = failures.visits.map written ++ [[]] ∧
        Outline.readLines failures.report = failures.outline ∧
        ∀ others : Failures, others.OneLined → others.report = failures.report →
          others.outline = failures.outline) ∧
      ∃ jsons, failures.toJson = .array jsons ∧
        List.Forall₂ Failure.Mirrors jsons failures.toList := by
  refine ⟨fun h => ⟨h.pieces_report, h.readLines_report, fun others ho hsame => ?_⟩,
    _, rfl, Failure.forall₂_mirrors failures.toList⟩
  rw [← ho.readLines_report, hsame, h.readLines_report]

/-- Descriptions that look like indentation and bullets do not mislead. -/
theorem report_disguised :
    let failures : Failures :=
      ⟨.elements "    - Set" "\t- " ⟨.missingValue, [.unknownSource "- "]⟩, [.missingValue]⟩
    failures.OneLined ∧ Outline.readLines failures.report =
      .cons "    - Set at \t-  has invalid elements"
        (.cons "Missing value" .nil (.cons "Could not find config source - " .nil .nil))
        (.cons "Missing value" .nil .nil) := by
  intro failures
  have hlines : failures.OneLined := by
    have hvisits : failures.visits = [(0, failures.first), (1, .missingValue),
        (1, .unknownSource "- "), (0, .missingValue)] := by
      simp [failures, visits, Failure.visits, Failure.parts, Failure.children?, NonEmpty.toList]
    rw [oneLined_iff, hvisits]
    decide
  obtain ⟨-, hread, -⟩ := (report_lossless failures).1 hlines
  have houtline : failures.outline = .cons failures.first.description
      (.cons (Failure.missingValue).description .nil
        (.cons (Failure.unknownSource "- ").description .nil .nil))
      (.cons (Failure.missingValue).description .nil .nil) := by
    simp [failures, outline, Failure.outline, Failure.parts, Failure.children?, NonEmpty.toList]
  refine ⟨hlines, ?_⟩
  rw [hread, houtline]
  rfl

end Failures
end TypedConfig
