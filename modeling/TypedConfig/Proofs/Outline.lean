/-
# Outlines

An outline is a forest of texts. As rows it is written from top to bottom, each text
with its depth and in front of what is below it; as lines, each row is indented by
four spaces for each level of its depth and has a bullet. Both ways of writing are
read back (`Outline.ofRows_rows`, `Outline.readRow_written`), whatever the texts
look like: the bullet ends the indentation, and what is below a text are the rows
behind it up to the next one that is not deeper.

Key definitions: `Outline`, `Outline.rows`, `Outline.ofRows`, `Outline.written`,
`Outline.readLines`.
Key theorems: `Outline.ofRows_rows`, `Outline.readLines_written`.
-/
import TypedConfig.Proofs.Pieces

namespace TypedConfig

/-- A forest of texts: that of the first tree, the forest below it, and the trees after it. -/
inductive Outline where
  | nil
  | cons (text : String) (below after : Outline)
deriving DecidableEq

namespace Outline

/-- The texts from top to bottom, each with its depth. -/
def rows (depth : Nat) : Outline → List (Nat × String)
  | .nil => []
  | .cons text below after => (depth, text) :: (rows (depth + 1) below ++ rows depth after)

/-- Whether a row is deeper than `depth`. -/
def deeper (depth : Nat) (row : Nat × String) : Bool := decide (depth < row.1)

/-- The outline with the given rows: below a text stand the rows behind it that are deeper. -/
def ofRows : List (Nat × String) → Outline
  | [] => .nil
  | (depth, text) :: rest =>
    .cons text (ofRows (rest.takeWhile (deeper depth))) (ofRows (rest.dropWhile (deeper depth)))
termination_by rows => rows.length
decreasing_by
  · exact Nat.lt_succ_of_le (List.takeWhile_prefix _).length_le
  · exact Nat.lt_succ_of_le (List.dropWhile_suffix _).length_le

theorem le_of_mem_rows {row : Nat × String} : ∀ {outline : Outline} {depth : Nat},
    row ∈ outline.rows depth → depth ≤ row.1
  | .cons text below after, depth, h => by
    rcases List.mem_cons.mp h with rfl | h
    · exact Nat.le_refl depth
    · rcases List.mem_append.mp h with h | h
      · exact Nat.le_of_succ_le (le_of_mem_rows h)
      · exact le_of_mem_rows h

/-- What is deeper goes on until the next text of the same depth. -/
theorem span_rows (depth : Nat) (below after : Outline) :
    (below.rows (depth + 1) ++ after.rows depth).takeWhile (deeper depth) =
        below.rows (depth + 1) ∧
      (below.rows (depth + 1) ++ after.rows depth).dropWhile (deeper depth) =
        after.rows depth := by
  have hbelow : ∀ row ∈ below.rows (depth + 1), deeper depth row = true :=
    fun row hr => decide_eq_true (le_of_mem_rows hr)
  rw [List.takeWhile_append_of_pos hbelow, List.dropWhile_append_of_pos hbelow]
  cases after with
  | nil => exact ⟨List.append_nil _, rfl⟩
  | cons text below' after' =>
    have hno : ¬ deeper depth (depth, text) = true := by simp [deeper]
    rw [rows, List.takeWhile_cons_of_neg hno, List.dropWhile_cons_of_neg hno, List.append_nil]
    exact ⟨rfl, rfl⟩

/-- **An outline is read back from its rows.** -/
theorem ofRows_rows : ∀ (outline : Outline) (depth : Nat), ofRows (outline.rows depth) = outline
  | .nil, _ => by rw [rows, ofRows]
  | .cons text below after, depth => by
    obtain ⟨htake, hdrop⟩ := span_rows depth below after
    rw [rows, ofRows, htake, hdrop, ofRows_rows below, ofRows_rows after]

/-! ### Lines -/

/-- A row as a line: four spaces for each level of its depth, a bullet and the text. -/
def written (row : Nat × String) : List Char :=
  List.replicate (4 * row.1) ' ' ++ '-' :: ' ' :: row.2.toList

/-- The row that a line stands for. -/
def readRow (line : List Char) : Nat × String :=
  ((line.takeWhile (· == ' ')).length / 4, String.ofList ((line.dropWhile (· == ' ')).drop 2))

/-- The outline that is written in the lines of a text. -/
def readLines (text : String) : Outline :=
  ofRows ((Text.pieces '\n' text.toList).dropLast.map readRow)

theorem readRow_written (row : Nat × String) : readRow (written row) = row := by
  obtain ⟨depth, text⟩ := row
  have hspaces : ∀ c ∈ List.replicate (4 * depth) ' ', (c == ' ') = true := fun c hc => by
    rw [List.eq_of_mem_replicate hc, BEq.rfl]
  rw [readRow, written, List.takeWhile_append_of_pos hspaces, List.dropWhile_append_of_pos hspaces,
    List.takeWhile_cons_of_neg (by decide), List.dropWhile_cons_of_neg (by decide), List.append_nil,
    List.length_replicate, Nat.mul_div_cancel_left depth (by decide), List.drop_succ_cons,
    List.drop_succ_cons, List.drop_zero, String.ofList_toList]

theorem not_mem_written {row : Nat × String} (h : '\n' ∉ row.2.toList) :
    '\n' ∉ written row := by
  simp [written, h]

/-- **An outline is read back from its lines**, if each of them holds one text as a whole. -/
theorem readLines_written {text : String} {outline : Outline} {depth : Nat}
    (h : Text.pieces '\n' text.toList = (outline.rows depth).map written ++ [[]]) :
    readLines text = outline := by
  have hread : ((outline.rows depth).map written).map readRow = outline.rows depth :=
    List.map_map.trans (List.map_id'' readRow_written _)
  rw [readLines, h, List.dropLast_concat, hread, ofRows_rows]

end Outline
end TypedConfig
