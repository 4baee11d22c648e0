/-
# Repeating a step of reading

A reader that goes through a text repeats a step until the step says that it is
done. Each repetition has to leave less of the text, so the end is always reached.

Key definitions: `repeatStep`.
-/

namespace TypedConfig
namespace Text

variable {σ δ ε : Type}

/-- Repeats a step on some data as long as the step asks to go on, which it may do only
if it left less to read. -/
def repeatStep (left : σ → Nat) (step : δ → StateT σ (Except ε) (δ × Bool)) (data : δ) :
    StateT σ (Except ε) δ := fun s =>
  match step data s with
  | .error e => .error e
  | .ok ((data', goOn), s') =>
    if goOn ∧ left s' < left s then repeatStep left step data' s' else .ok (data', s')
termination_by s => left s

end Text
end TypedConfig
