/-
# What the strict reader has read

When a step of the strict reader succeeds, it has read something, and that is a
beginning of the text which was left (`Cursor.At`). Within a string the reader may stand
in the middle of a character (`Cursor.Within`). A step is opened by what it finds in
front of it (`Read.ok_of_bind`), and a loop turn by turn (`Read.loop_ok`).

Key definitions: `Cursor.At`, `Cursor.Within`.
Key theorems: `Cursor.At.of_head`, `Cursor.Within.next`, `Read.ok_of_bind`, `Read.loop_ok`,
`Read.takeWhile_ok`, `Read.nextVisible?_ok`.
-/
import TypedConfig.Proofs.Json.Octets
import TypedConfig.Proofs.Json.Syntax

namespace TypedConfig
namespace Json

/-! ### Where a cursor is -/

/-- The cursor is in front of these characters. -/
structure Cursor.At (s : Cursor) (cs : List Char) : Prop where
  rest : s.rest = encode cs
  left : s.left = s.rest.length

namespace Cursor

variable {s : Cursor} {cs : List Char} {c : Char}

theorem At.start (cs : List Char) : (start (.ofList cs)).At cs := ⟨octets_ofList cs, rfl⟩

theorem next_rest (s : Cursor) : s.next.rest = s.rest.tail := by
  unfold next
  split
  next h => rw [h, List.tail_nil]
  next h =>
    rw [h, List.tail_cons]
    split <;> rfl

theorem next_left (h : s.left = s.rest.length) : s.next.left = s.next.rest.length := by
  unfold next
  split
  · exact h
  next hrest =>
    have hlength : s.left - 1 = s.rest.tail.length := by rw [List.length_tail, h]
    rw [hrest, List.tail_cons] at hlength
    split <;> exact hlength

theorem next_left_lt (hl : s.left = s.rest.length) (h : s.rest.head? = some c) :
    s.next.left < s.left := by
  obtain ⟨rest, hrest⟩ := List.head?_eq_some_iff.mp h
  rw [next_left hl, next_rest, hl, hrest, List.tail_cons, List.length_cons]
  exact Nat.lt_succ_self _

/-- Where a byte of ASCII is next, so is the character. -/
theorem At.of_head (hs : s.At cs) (hc : isAscii c = true) (h : s.rest.head? = some c) :
    ∃ more, cs = c :: more ∧ s.next.At more := by
  obtain ⟨rest, hrest⟩ := List.head?_eq_some_iff.mp h
  obtain ⟨more, rfl, hmore⟩ := exists_of_encode hc (hs.rest ▸ hrest)
  exact ⟨more, rfl, by rw [next_rest, hrest, List.tail_cons, hmore], next_left hs.left⟩

theorem At.of_end (hs : s.At cs) (h : s.rest.head? = none) : cs = [] :=
  encode_eq_nil.mp (hs.rest ▸ List.head?_eq_none_iff.mp h)

theorem At.left_eq {t : Cursor} {ds : List Char} (hs : s.At (ds ++ cs)) (ht : t.At cs) :
    s.left = (encode ds).length + t.left := by
  rw [hs.left, ht.left, hs.rest, ht.rest, encode, List.flatMap_append, List.length_append, encode,
    encode]

theorem At.left_le {t : Cursor} {ds : List Char} (hs : s.At (ds ++ cs)) (ht : t.At cs) :
    t.left ≤ s.left :=
  hs.left_eq ht ▸ Nat.le_add_left _ _

/-- The bytes that are left become fewer when something was read. -/
theorem At.left_lt {t : Cursor} {ds : List Char} (hs : s.At (ds ++ cs)) (ht : t.At cs)
    (hds : ds ≠ []) : t.left < s.left := by
  rw [hs.left_eq ht]
  exact Nat.lt_add_of_pos_left (List.length_pos_iff.mpr fun h => hds (encode_eq_nil.mp h))

/-- The cursor is in front of these characters, but for bytes that are left of the character
before them. -/
def Within (s : Cursor) (cs : List Char) : Prop :=
  ∃ pending, (∀ b ∈ pending, isAscii b = false) ∧ s.rest = pending ++ encode cs ∧
    s.left = s.rest.length

theorem At.within (hs : s.At cs) : s.Within cs := ⟨[], nofun, hs.rest, hs.left⟩

theorem Within.left (hs : s.Within cs) : s.left = s.rest.length := by
  obtain ⟨-, -, -, hleft⟩ := hs
  exact hleft

/-- A byte of ASCII is next no sooner than the character before it is read whole. -/
theorem Within.of_head (hs : s.Within cs) (hc : isAscii c = true) (h : s.rest.head? = some c) :
    ∃ more, cs = c :: more ∧ s.next.At more := by
  obtain ⟨pending, hpending, hrest, hleft⟩ := hs
  cases pending with
  | nil => exact At.of_head ⟨hrest, hleft⟩ hc h
  | cons b bs =>
    rw [hrest, List.cons_append, List.head?_cons, Option.some.injEq] at h
    have hb := hpending b List.mem_cons_self
    rw [h, hc] at hb
    cases hb

/-- A byte that is read belongs to the character before, or it begins the next one. -/
theorem Within.next (hs : s.Within cs) (h : s.rest.head? = some c) :
    s.next.Within cs ∨
      ∃ d more, cs = d :: more ∧ (c = d ∨ isAscii d = false) ∧ s.next.Within more := by
  obtain ⟨pending, hpending, hrest, hleft⟩ := hs
  have hleft' := next_left hleft
  cases pending with
  | cons b bs =>
    refine Or.inl ⟨bs, fun d hd => hpending d (List.mem_cons_of_mem _ hd), ?_, hleft'⟩
    rw [next_rest, hrest, List.cons_append, List.tail_cons]
  | nil =>
    cases cs with
    | nil =>
      rw [hrest] at h
      cases h
    | cons d more =>
      obtain ⟨b, bs, hbytes, hbs, hd⟩ := exists_first_byte d
      rw [encode_cons, hbytes, List.nil_append, List.cons_append] at hrest
      obtain rfl : b = c := by
        rw [hrest] at h
        exact Option.some.inj h
      refine Or.inr ⟨d, more, rfl, hd, bs, hbs, ?_, hleft'⟩
      rw [next_rest, hrest, List.tail_cons]

end Cursor

namespace Read

variable {α β δ : Type} {s t : Cursor} {cs : List Char}

theorem ok_of_bind {x : Read α} {k : α → Read β} {b : β} (h : (x >>= k) s = .ok (b, t)) :
    ∃ a u, x s = .ok (a, u) ∧ k a u = .ok (b, t) := by
  change (x s >>= fun p => k p.1 p.2) = _ at h
  cases hx : x s with
  | error e =>
    rw [hx] at h
    cases h
  | ok p =>
    rw [hx] at h
    exact ⟨p.1, p.2, rfl, h⟩

theorem peek?_bind (k : Option Char → Read β) (s : Cursor) :
    (peek? >>= k) s = k s.rest.head? s := rfl

theorem next?_bind (k : Option Char → Read β) (s : Cursor) :
    (next? >>= k) s = k s.rest.head? s.next := rfl

theorem skip_bind (k : Unit → Read β) (s : Cursor) : (skip >>= k) s = k () s.next := rfl

theorem ite_skip_bind (cond : Prop) [Decidable cond] (k : Unit → Read β) (s : Cursor) :
    (if cond then skip >>= k else k ()) s = k () (if cond then s.next else s) := by
  split <;> rfl

theorem fault_ne {f : Fault} {a : α} : fault f s ≠ .ok (a, t) := nofun

theorem fault_bind_ne {f : Fault} {k : α → Read β} {b : β} :
    ((fault f : Read α) >>= k) s ≠ .ok (b, t) := nofun

theorem faultAhead_ne {f : Fault} {a : α} : faultAhead f s ≠ .ok (a, t) := nofun

/-- What holds of a turn if it holds after it, or if the loop ends there, holds of a loop. -/
theorem loop_ok {step : δ → Read (δ × Bool)} {e : δ} {motive : δ → Cursor → Prop}
    (hturn : ∀ d s d' more u, step d s = .ok ((d', more), u) →
      (more = true → u.left < s.left → motive d' u) →
      (more = false ∨ ¬u.left < s.left → d' = e ∧ u = t) → motive d s)
    (d : δ) (s : Cursor) (h : loop step d s = .ok (e, t)) : motive d s := by
  rw [loop, Text.repeatStep] at h
  cases hstep : step d s with
  | error error =>
    rw [hstep] at h
    cases h
  | ok result =>
    obtain ⟨⟨d', more⟩, u⟩ := result
    rw [hstep] at h
    dsimp only at h
    by_cases hmore : more = true ∧ u.left < s.left
    · rw [if_pos hmore] at h
      refine hturn d s d' more u hstep (fun _ _ => loop_ok hturn d' u h) fun hend => ?_
      rcases hend with hend | hend
      · exact absurd hmore.1 (Bool.eq_false_iff.mp hend)
      · exact absurd hmore.2 hend
    · rw [if_neg hmore] at h
      cases h
      exact hturn d s e more t hstep (fun h₁ h₂ => absurd ⟨h₁, h₂⟩ hmore) fun _ => ⟨rfl, rfl⟩
termination_by s.left
decreasing_by exact hmore.2

/-- What is read while a class of ASCII goes on is of that class. -/
theorem takeWhile_ok {p : Char → Bool} (hp : ∀ c, p c = true → isAscii c = true)
    {text : List Char} (hs : s.At cs) (h : takeWhile p s = .ok (text, t)) :
    ∃ more, cs = text ++ more ∧ (∀ c ∈ text, p c = true) ∧ t.At more := by
  obtain ⟨reversed, u, hloop, hreverse⟩ := ok_of_bind h
  cases hreverse
  suffices hread : ∀ cs, s.At cs → ∃ read more, cs = read ++ more ∧
      reversed = read.reverse ++ [] ∧ (∀ c ∈ read, p c = true) ∧ t.At more by
    obtain ⟨read, more, rfl, hrev, hread, ht⟩ := hread cs hs
    rw [hrev, List.append_nil, List.reverse_reverse]
    exact ⟨more, rfl, hread, ht⟩
  refine loop_ok (motive := fun before s => ∀ cs, s.At cs → ∃ read more, cs = read ++ more ∧
    reversed = read.reverse ++ before ∧ (∀ c ∈ read, p c = true) ∧ t.At more) ?_ [] s hloop
  intro before s after more u hstep hmore hend cs hs
  rw [peek?_bind] at hstep
  cases hhead : s.rest.head? with
  | none =>
    rw [hhead] at hstep
    cases hstep
    obtain ⟨rfl, rfl⟩ := hend (Or.inl rfl)
    exact ⟨[], cs, rfl, rfl, nofun, hs⟩
  | some c =>
    rw [hhead] at hstep
    dsimp only at hstep
    by_cases hc : p c = true
    · rw [if_pos hc, skip_bind] at hstep
      cases hstep
      obtain ⟨more, rfl, hnext⟩ := hs.of_head (hp c hc) hhead
      have hleft := Cursor.next_left_lt hs.left hhead
      obtain ⟨read, more, rfl, hrev, hread, ht⟩ := hmore rfl hleft _ hnext
      refine ⟨c :: read, more, rfl, ?_, List.forall_mem_cons.mpr ⟨hc, hread⟩, ht⟩
      rw [hrev, List.reverse_cons, List.append_assoc, List.singleton_append]
    · rw [if_neg hc] at hstep
      cases hstep
      obtain ⟨rfl, rfl⟩ := hend (Or.inl rfl)
      exact ⟨[], cs, rfl, rfl, nofun, hs⟩

/-- Layout is read over. -/
theorem nextVisible?_ok {c? : Option Char} (hs : s.At cs) (h : nextVisible? s = .ok (c?, t)) :
    ∃ (layout : Layout) (more : List Char), cs = layout.text ++ more ∧ t.At more ∧
      t.rest.head? = c? := by
  obtain ⟨text, u, htext, hpeek⟩ := ok_of_bind h
  cases hpeek
  have hblank (c : Char) (hc : (c == ' ' || c == '\t' || c == '\n' || c == '\r') = true) :
      c = ' ' ∨ c = '\t' ∨ c = '\n' ∨ c = '\r' := by
    simpa only [Bool.or_eq_true, beq_iff_eq, or_assoc] using hc
  obtain ⟨more, rfl, hall, ht⟩ := takeWhile_ok (fun c hc => by
    rcases hblank c hc with rfl | rfl | rfl | rfl <;> rfl) hs htext
  exact ⟨⟨text, fun c hc => hblank c (hall c hc)⟩, more, rfl, ht, rfl⟩

end Read
end Json
end TypedConfig
