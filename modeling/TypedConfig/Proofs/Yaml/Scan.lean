/-
# The laws of scanning steps

A step either finds a fault or goes on in another state. Steps in a row are
evaluated one after the other (`Scan.bind_of_ok`), and a loop turn by turn
(`Scan.loop_of_more`, `Scan.loop_of_done`). Many steps do nothing but read on: the
state after them differs only in how far the text was read (`ScanState.moved`).

Key definitions: `ScanState.moved`, `ScanState.newLine`.
Key theorems: `Scan.bind_of_ok`, `Scan.loop_of_more`, `Scan.loop_of_done`.
-/
import TypedConfig.Yaml.Scan

namespace TypedConfig
namespace Yaml

/-- The state when the text has been read up to `rest`, which begins at `mark`. -/
def ScanState.moved (s : ScanState) (rest : List Char) (mark : Mark) (blank : Bool) :
    ScanState :=
  { s with rest, left := rest.length, mark, lineIsBlank := blank }

theorem ScanState.eq_moved {s : ScanState} {cs : List Char} (hr : s.rest = cs)
    (hl : s.left = cs.length) : s = s.moved cs s.mark s.lineIsBlank := by
  subst hr
  rw [ScanState.moved, ← hl]

/-- The state on a new line, on which a key may begin unless a flow collection is open. -/
def ScanState.newLine (s : ScanState) : ScanState :=
  if s.flowLevel = 0 then { s with keyAllowed := true } else s

theorem ScanState.newLine_newLine (s : ScanState) : s.newLine.newLine = s.newLine := by
  unfold ScanState.newLine
  by_cases h : s.flowLevel = 0
  · rw [if_pos h, if_pos h]
  · rw [if_neg h, if_neg h]

theorem ScanState.newLine_indents (s : ScanState) : s.newLine.indents = s.indents := by
  unfold ScanState.newLine
  split <;> rfl

theorem ScanState.newLine_keys (s : ScanState) : s.newLine.keys = s.keys := by
  unfold ScanState.newLine
  split <;> rfl

namespace Scan

variable {α β σ : Type} {s s' : ScanState} {a : α}

theorem bind_of_ok {x : Scan α} (h : x s = .ok (a, s')) (k : α → Scan β) :
    (x >>= k) s = k a s' := by
  change (x s >>= fun p => k p.1 p.2) = _
  rw [h]
  rfl

theorem pure_bind_apply (a : α) (k : α → Scan β) (s : ScanState) :
    (pure a >>= k) s = k a s := rfl

theorem get_bind (k : ScanState → Scan β) (s : ScanState) : (get >>= k) s = k s s := rfl

theorem update_apply (f : ScanState → ScanState) (s : ScanState) :
    update f s = .ok ((), f s) := rfl

theorem update_bind (f : ScanState → ScanState) (k : Unit → Scan β) (s : ScanState) :
    (update f >>= k) s = k () (f s) := rfl

theorem ite_update_bind (cond : Prop) [Decidable cond] (f : ScanState → ScanState)
    (k : Unit → Scan β) (s : ScanState) :
    (if cond then update f >>= k else k ()) s = k () (if cond then f s else s) := by
  split <;> rfl

theorem here_bind (k : Mark → Scan β) (s : ScanState) : (here >>= k) s = k s.mark s := rfl

theorem peekAt_bind (n : Nat) (k : Char → Scan β) (s : ScanState) :
    (peekAt n >>= k) s = k (s.rest[n]?.getD '\x00') s := rfl

theorem peek_bind (k : Char → Scan β) (s : ScanState) :
    (peek >>= k) s = k (s.rest.head?.getD '\x00') s := by
  rw [List.head?_eq_getElem?]
  rfl

/-! ### Loops -/

variable {step : σ → Scan (σ × Bool)} {data data' : σ}

theorem loop_of_done (h : step data s = .ok ((data', false), s')) :
    loop step data s = .ok (data', s') := by
  rw [loop, Text.repeatStep, h]
  rfl

theorem loop_of_more (h : step data s = .ok ((data', true), s')) (hl : s'.left < s.left) :
    loop step data s = loop step data' s' := by
  rw [loop, Text.repeatStep, h]
  exact if_pos ⟨rfl, hl⟩

/-- A loop ends when another turn changes nothing. -/
theorem loop_of_settled (h : step data s = .ok ((data', true), s')) (hl : s'.left < s.left)
    (h' : step data' s' = .ok ((data', false), s')) : loop step data s = .ok (data', s') :=
  (loop_of_more h hl).trans (loop_of_done h')

end Scan
end Yaml
end TypedConfig
