/-
# Taking a text apart at a separator

What was written with a separator between its parts, or behind each of them, is taken
apart into these, as long as none of them holds the separator
(`Text.pieces_intercalate`, `Text.pieces_flatMap`).

Key theorems: `Text.pieces_append`, `Text.pieces_intercalate`, `Text.pieces_flatMap`.
-/
import TypedConfig.Text.Pieces

namespace TypedConfig
namespace Text

variable {separator : Char}

theorem pieces_of_not_mem : ∀ {piece : List Char}, separator ∉ piece →
    pieces separator piece = [piece]
  | [], _ => rfl
  | c :: cs, h => by
    rw [List.mem_cons, not_or] at h
    rw [pieces, if_neg (Ne.symm h.1), pieces_of_not_mem h.2]

theorem pieces_append (rest : List Char) : ∀ {piece : List Char}, separator ∉ piece →
    pieces separator (piece ++ separator :: rest) = piece :: pieces separator rest
  | [], _ => by rw [List.nil_append, pieces, if_pos rfl]
  | c :: cs, h => by
    rw [List.mem_cons, not_or] at h
    rw [List.cons_append, pieces, if_neg (Ne.symm h.1), pieces_append rest h.2]

/-- A text is taken apart into the pieces that were joined. -/
theorem pieces_intercalate : ∀ {ps : List (List Char)}, ps ≠ [] →
    (∀ p ∈ ps, separator ∉ p) → pieces separator ([separator].intercalate ps) = ps
  | [], h, _ => absurd rfl h
  | [p], _, h => by
    rw [List.intercalate_singleton]
    exact pieces_of_not_mem (h p List.mem_cons_self)
  | p :: q :: ps, _, h => by
    have ih : pieces separator ([separator].intercalate (q :: ps)) = q :: ps :=
      pieces_intercalate (List.cons_ne_nil q ps) fun r hr => h r (List.mem_cons_of_mem p hr)
    rw [List.intercalate_cons_cons, List.append_assoc, List.singleton_append,
      pieces_append _ (h p List.mem_cons_self), ih]

/-- A text in which the separator ends every piece is taken apart into these, and nothing is
left behind the last one. -/
theorem pieces_flatMap : ∀ {ps : List (List Char)}, (∀ p ∈ ps, separator ∉ p) →
    pieces separator (ps.flatMap (· ++ [separator])) = ps ++ [[]]
  | [], _ => rfl
  | p :: ps, h => by
    have ih : pieces separator (ps.flatMap (· ++ [separator])) = ps ++ [[]] :=
      pieces_flatMap fun r hr => h r (List.mem_cons_of_mem p hr)
    rw [List.flatMap_cons, List.append_assoc, List.singleton_append,
      pieces_append _ (h p List.mem_cons_self), ih, List.cons_append]

end Text
end TypedConfig
