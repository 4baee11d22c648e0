/-
# Resolving sources together

A resource is found under the first root that has it, in the order of the roots
(`Source.findResource?_eq_some_iff`). When several sources are asked for, the search
for one does not depend on that for the others, so what is missing is reported all
together, once for each time that it was asked for (`Source.resolved_together`). Both
ways of resolving are one gathered sequence, and the law is shown of that
(`Source.ResolvedTogether.of_parts`).

Key definitions: `Source.PathUnder`, `Source.FirstUnder`, `Source.ResolvedTogether`.
Key theorems: `Source.pathUnder_iff`, `Source.findResource?_eq_some_iff`,
`Source.resolved_together`.
-/
import Mathlib.Data.List.Forall2
import TypedConfig.FileTree
import TypedConfig.Proofs.Outcome
import TypedConfig.Source

namespace TypedConfig
namespace Source

/-! ### Looking under the roots -/

/-- The path that a resource name has under a root: that of the name, without all slashes at
its front, seen from the root. -/
def PathUnder (root : Path) (name : String) (path : Path) : Prop :=
  ∃ (slashes : Nat) (relative : String),
    name.toList = List.replicate slashes '/' ++ relative.toList ∧
      relative.toList.head? ≠ some '/' ∧ path = root.join ⟨relative⟩

/-- There is a file for the resource under the root. -/
def HasResource (files : FileSystem) (name : String) (root : Path) : Prop :=
  ∃ path, PathUnder root name path ∧ files.isFile path = true

/-- The source is the file of the resource under the first of the roots that has one. -/
def FirstUnder (files : FileSystem) (roots : List Path) (name : String) (source : Source) :
    Prop :=
  ∃ before root after path, roots = before ++ root :: after ∧
    (∀ other ∈ before, ¬ HasResource files name other) ∧ PathUnder root name path ∧
      files.isFile path = true ∧ source = .resource name path

variable {files : FileSystem} {roots : List Path} {root path : Path} {name : String}

theorem pathUnder_iff : PathUnder root name path ↔ path = resourcePath root name := by
  constructor
  · rintro ⟨slashes, relative, hname, hhead, rfl⟩
    have hdrop : name.toList.dropWhile (· == '/') = relative.toList := by
      rw [hname, List.dropWhile_append_of_pos fun c hc => by
        rw [List.eq_of_mem_replicate hc, BEq.rfl]]
      cases hr : relative.toList with
      | nil => rfl
      | cons c cs =>
        rw [hr, List.head?_cons] at hhead
        exact List.dropWhile_cons_of_neg fun hc => hhead (congrArg some (beq_iff_eq.mp hc))
    rw [resourcePath, hdrop, String.ofList_toList]
  · rintro rfl
    refine ⟨(name.toList.takeWhile (· == '/')).length,
      String.ofList (name.toList.dropWhile (· == '/')), ?_, ?_, rfl⟩
    · have hslashes : name.toList.takeWhile (· == '/') =
          List.replicate (name.toList.takeWhile (· == '/')).length '/' :=
        List.eq_replicate_iff.mpr
          ⟨rfl, fun c hc => beq_iff_eq.mp (List.all_eq_true.mp List.all_takeWhile c hc)⟩
      rw [String.toList_ofList, ← hslashes, List.takeWhile_append_dropWhile]
    · rw [String.toList_ofList]
      intro hhead
      have h := List.head?_dropWhile_not (· == '/') name.toList
      rw [hhead] at h
      exact absurd h (by decide)

theorem hasResource_iff :
    HasResource files name root ↔ files.isFile (resourcePath root name) = true := by
  simp only [HasResource, pathUnder_iff, exists_eq_left]

instance : DecidablePred (HasResource files name) :=
  fun _ => decidable_of_iff _ hasResource_iff.symm

/-- A resource is found at the first root that has it. -/
theorem findResource?_eq_some_iff {source : Source} :
    findResource? files roots name = some source ↔ FirstUnder files roots name source := by
  rw [findResource?, List.find?_map, Option.map_map, Option.map_eq_some_iff]
  constructor
  · rintro ⟨root, hfind, rfl⟩
    obtain ⟨hfile, before, after, hroots, hbefore⟩ := List.find?_eq_some_iff_append.mp hfind
    refine ⟨before, root, after, resourcePath root name, hroots, fun other ho h => ?_,
      pathUnder_iff.mpr rfl, hfile, rfl⟩
    have hno := hbefore other ho
    rw [Function.comp_apply, hasResource_iff.mp h] at hno
    cases hno
  · rintro ⟨before, root, after, path, hroots, hbefore, hpath, hfile, rfl⟩
    obtain rfl := pathUnder_iff.mp hpath
    refine ⟨root, List.find?_eq_some_iff_append.mpr ⟨hfile, before, after, hroots, ?_⟩, rfl⟩
    intro other ho
    rw [Function.comp_apply, Bool.not_eq_true', Bool.eq_false_iff]
    exact fun h => hbefore other ho (hasResource_iff.mpr h)

/-- A resource is not found exactly if no root has it. -/
theorem findResource?_eq_none_iff :
    findResource? files roots name = none ↔ ¬ ∃ root ∈ roots, HasResource files name root := by
  simp [findResource?, hasResource_iff]

/-! ### All requests together -/

/-- The requests have been met together: there are sources exactly if every request can be
met, and then they are the answers to the requests one by one; otherwise there is one failure,
and it holds one for each request that cannot be met, in the order of the requests. -/
structure ResolvedTogether {α : Type} (CanMeet : α → Prop) [DecidablePred CanMeet]
    (Meets : α → Source → Prop) (label : α → String) (requests : List α)
    (outcome : Outcome (List Source)) : Prop where
  succeeds_iff : (∃ sources, outcome = .ok sources) ↔ ∀ request ∈ requests, CanMeet request
  eq_ok_iff : ∀ sources, outcome = .ok sources ↔ List.Forall₂ Meets requests sources
  fails : (∃ request ∈ requests, ¬ CanMeet request) → ∃ children : Failures,
    outcome = .error (.one (.several children)) ∧
      children.toList =
        (requests.filter fun request => ¬ CanMeet request).map (.unknownSource ∘ label)

section parts

variable {α : Type} {CanMeet : α → Prop} [DecidablePred CanMeet] {Meets : α → Source → Prop}
  {label : α → String} {outcome : α → Outcome Source}

theorem flatMap_failures (hmet : ∀ request, CanMeet request → ∃ s, outcome request = .ok s)
    (hmissing : ∀ request, ¬ CanMeet request →
      outcome request = .fail (.unknownSource (label request))) :
    ∀ requests : List α, (requests.map outcome).flatMap Outcome.failures =
      (requests.filter fun request => ¬ CanMeet request).map (.unknownSource ∘ label)
  | [] => rfl
  | request :: requests => by
    have ih := flatMap_failures hmet hmissing requests
    rw [List.map_cons, List.flatMap_cons, ih]
    by_cases h : CanMeet request
    · obtain ⟨source, hs⟩ := hmet request h
      rw [hs, Outcome.failures_ok, List.nil_append, List.filter_cons_of_neg (by simpa using h)]
    · rw [hmissing request h, List.filter_cons_of_pos (by simpa using h), List.map_cons]
      rfl

/-- Requests that are met one by one, or reported by their label, are met together. -/
theorem ResolvedTogether.of_parts
    (hcan : ∀ request, CanMeet request ↔ ∃ source, outcome request = .ok source)
    (hmeets : ∀ request source, outcome request = .ok source ↔ Meets request source)
    (hmissing : ∀ request, ¬ CanMeet request →
      outcome request = .fail (.unknownSource (label request)))
    (requests : List α) : ResolvedTogether CanMeet Meets label requests
      ((Outcome.sequence (requests.map outcome)).wrap .several) := by
  have hok : ∀ sources, (Outcome.sequence (requests.map outcome)).wrap .several = .ok sources ↔
      requests.map outcome = sources.map .ok := by
    intro sources
    rw [Outcome.wrap_eq_ok_iff, Outcome.sequence_eq_ok_iff]
  have hsucceeds : (∃ sources, (Outcome.sequence (requests.map outcome)).wrap .several =
      .ok sources) ↔ ∀ request ∈ requests, CanMeet request := by
    simp only [Outcome.wrap_eq_ok_iff, Outcome.exists_ok_sequence_iff, List.forall_mem_map, hcan]
  refine ⟨hsucceeds, fun sources => ?_, ?_⟩
  · rw [hok, ← List.forall₂_eq_eq_eq, List.forall₂_map_left_iff, List.forall₂_map_right_iff]
    simp only [hmeets]
  · rintro ⟨request, hr, hno⟩
    cases hs : Outcome.sequence (requests.map outcome) with
    | ok sources =>
      exact absurd (hsucceeds.mp ⟨sources, by rw [hs, Outcome.wrap]⟩ request hr) hno
    | error fs =>
      refine ⟨fs, rfl, ?_⟩
      rw [Outcome.sequence_eq_error_iff.mp hs]
      exact flatMap_failures (fun request => (hcan request).mp) hmissing requests

end parts

variable (files roots)

/-- **What is missing is reported all together, and the order of the roots is kept.** Resources
are resolved together, each under the first root that has it, and so are paths, which stand for
themselves. -/
theorem resolved_together (names : List String) (paths : List Path) :
    ResolvedTogether (fun name => ∃ root ∈ roots, HasResource files name root)
        (FirstUnder files roots) id names (resolveResources files roots names) ∧
      ResolvedTogether (fun path => files.isFile path = true)
        (fun path source => files.isFile path = true ∧ source = .file path) Path.text paths
        (ofPaths files paths) := by
  constructor
  · refine ResolvedTogether.of_parts (fun name => ?_) (fun name source => ?_)
      (fun name hno => ?_) names
    · rw [← not_iff_not, ← findResource?_eq_none_iff, ofResource]
      cases findResource? files roots name <;> simp [Outcome.fail]
    · rw [← findResource?_eq_some_iff, ofResource]
      cases findResource? files roots name <;> simp [Outcome.fail]
    · rw [ofResource, findResource?_eq_none_iff.mpr hno]
      rfl
  · refine ResolvedTogether.of_parts (fun path => ?_) (fun path source => ?_)
      (fun path hno => if_neg hno) paths
    · by_cases h : files.isFile path = true <;> simp [h, Outcome.fail]
    · by_cases h : files.isFile path = true <;> simp [h, Outcome.fail, eq_comm]

/-- The first root hides what the second one has; a name is reported as it was given. -/
example :
    let files := FileTree.fileSystem (.directory [
      ("a", .directory [("x", .file [])]),
      ("b", .directory [("x", .file []), ("y", .file [])])])
    let roots := [⟨"a"⟩, ⟨"b"⟩]
    resolveResources files roots ["/y", "x"] =
        .ok [.resource "/y" ⟨"b/y"⟩, .resource "x" ⟨"a/x"⟩] ∧
      resolveResources files roots ["z", "x", "//z", "z"] =
        .error (.one (.several
          ⟨.unknownSource "z", [.unknownSource "//z", .unknownSource "z"]⟩)) :=
  ⟨rfl, rfl⟩

end Source
end TypedConfig
