/-
# What the strict check accepts

A turn over the parts of a container reads one part or finds the end (`Read.PartRead`), and
so all turns read the parts as they are written (`Read.parts_ok`). With a reader of
values (`Read.ReadsValues`), arrays and objects are read that way, and by recursion on
how deep they may be nested all values are (`Read.value_ok`). A text with which nothing
is wrong is therefore a document (`exists_document`).

Key definitions: `Read.PartRead`, `Read.ReadsValues`.
Key theorems: `Read.parts_ok`, `Read.elements_ok`, `Read.members_ok`, `Read.value_ok`,
`exists_document`.
-/
import TypedConfig.Proofs.Json.Scalars

namespace TypedConfig
namespace Json
namespace Read

variable {s t : Cursor} {cs : List Char}

/-! ### Words -/

theorem word_ok : ∀ {w : List Char}, (∀ c ∈ w, isAscii c = true) → ∀ {s : Cursor} {cs : List Char},
    s.At cs → word w s = .ok ((), t) → ∃ more, cs = w ++ more ∧ t.At more
  | [], _, s, cs, hs, h => by
    cases h
    exact ⟨cs, rfl, hs⟩
  | c :: w, hw, s, cs, hs, h => by
    rw [word, next?_bind] at h
    cases hhead : s.rest.head? with
    | none =>
      rw [hhead] at h
      exact absurd h fault_ne
    | some d =>
      rw [hhead] at h
      dsimp only at h
      split at h
      next heq =>
        obtain ⟨more, rfl, hnext⟩ := hs.of_head (hw c List.mem_cons_self) (heq ▸ hhead)
        obtain ⟨more, rfl, ht⟩ := word_ok (fun d hd => hw d (List.mem_cons_of_mem _ hd)) hnext h
        exact ⟨more, rfl, ht⟩
      · exact absurd h fault_ne

/-! ### The parts of a container -/

/-- The parts of a container as they are written, each behind its separator. -/
def partsSpelling {α : Type} (spelling : α → List Char) (first : Bool) :
    List (Padded α) → List Char
  | [] => []
  | ⟨before, part, after⟩ :: parts =>
    Syntax.separator first ++ (before.text ++ (spelling part ++
      (after.text ++ partsSpelling spelling false parts)))

/-- What a turn over the parts of a container has read: layout in front of the mark that ends
the container, or a part behind its separator. -/
inductive PartRead {α : Type} (spelling : α → List Char) (good : α → Prop) (close : Char)
    (first : Bool) (s u : Cursor) (cs : List Char) : Bool × Bool → Prop
  | close (inside : Layout) (more : List Char) (hcs : cs = inside.text ++ close :: more)
      (hu : u.next.At more) : PartRead spelling good close first s u cs (first, false)
  | part (inside before : Layout) (part : α) (more : List Char)
      (hcs : cs = inside.text ++ (Syntax.separator first ++
        (before.text ++ (spelling part ++ more))))
      (hpart : good part) (hleft : u.left < s.left) (hu : u.At more) :
      PartRead spelling good close first s u cs (false, true)

/-- When each turn has read a part, the loop has read all parts and the layout around them. -/
theorem parts_ok {α : Type} (spelling : α → List Char) (good : α → Prop) (close : Char)
    {step : Bool → Read (Bool × Bool)}
    (hstep : ∀ {first s result u cs}, s.At cs → step first s = .ok (result, u) →
      PartRead spelling good close first s u cs result)
    {first last : Bool} (hs : s.At cs) (h : loop step first s = .ok (last, t)) :
    ∃ (inside : Layout) (parts : List (Padded α)) (more : List Char),
      cs = inside.text ++ (partsSpelling spelling first parts ++ close :: more) ∧
        (∀ part ∈ parts, good part.item) ∧ t.next.At more := by
  revert cs
  refine loop_ok (motive := fun first s => ∀ {cs}, s.At cs →
    ∃ (inside : Layout) (parts : List (Padded α)) (more : List Char),
      cs = inside.text ++ (partsSpelling spelling first parts ++ close :: more) ∧
        (∀ part ∈ parts, good part.item) ∧ t.next.At more) ?_ first s h
  intro first s first' goOn u hturn hmore hend cs hs
  cases hstep hs hturn with
  | close inside more hcs hu =>
    obtain ⟨-, rfl⟩ := hend (Or.inl rfl)
    exact ⟨inside, [], more, hcs, nofun, hu⟩
  | part inside before part more hcs hpart hleft hu =>
    obtain ⟨after, parts, more, rfl, hparts, ht⟩ := hmore rfl hleft hu
    refine ⟨inside, ⟨before, part, after⟩ :: parts, more, ?_,
      List.forall_mem_cons.mpr ⟨hpart, hparts⟩, ht⟩
    rw [hcs]
    simp only [partsSpelling, List.append_assoc]

theorem elementsSpelling_eq : ∀ (first : Bool) (elements : List (Padded Syntax)),
    Syntax.elementsSpelling first elements = partsSpelling Syntax.spelling first elements
  | _, [] => rfl
  | first, ⟨before, element, after⟩ :: elements => by
    rw [Syntax.elementsSpelling, elementsSpelling_eq, partsSpelling]

theorem elementsDepth_le {n : Nat} : ∀ {elements : List (Padded Syntax)},
    (∀ element ∈ elements, element.item.depth ≤ n) → Syntax.elementsDepth elements ≤ n
  | [], _ => Nat.zero_le n
  | element :: _, h =>
    Nat.max_le.mpr ⟨h element List.mem_cons_self,
      elementsDepth_le fun e he => h e (List.mem_cons_of_mem _ he)⟩

/-- How a member of an object is written. -/
def memberSpelling (member : Member Syntax) : List Char :=
  stringSpelling member.key ++ (member.beforeColon.text ++
    ':' :: (member.afterColon.text ++ member.value.spelling))

theorem membersSpelling_eq : ∀ (first : Bool) (members : List (Padded (Member Syntax))),
    Syntax.membersSpelling first members = partsSpelling memberSpelling first members
  | _, [] => rfl
  | first, ⟨before, ⟨key, beforeColon, afterColon, value⟩, after⟩ :: members => by
    rw [Syntax.membersSpelling, membersSpelling_eq, partsSpelling, memberSpelling]
    simp only [List.append_assoc, List.cons_append]

theorem membersDepth_le {n : Nat} : ∀ {members : List (Padded (Member Syntax))},
    (∀ member ∈ members, member.item.value.depth ≤ n) → Syntax.membersDepth members ≤ n
  | [], _ => Nat.zero_le n
  | member :: _, h =>
    Nat.max_le.mpr ⟨h member List.mem_cons_self,
      membersDepth_le fun e he => h e (List.mem_cons_of_mem _ he)⟩

/-! ### Arrays and objects -/

/-- The reader reads values that nest at most `n` arrays and objects, with layout before them. -/
def ReadsValues (reader : Read Unit) (n : Nat) : Prop :=
  ∀ {s t : Cursor} {cs : List Char}, s.At cs → reader s = .ok ((), t) →
    ∃ (before : Layout) (value : Syntax) (more : List Char),
      cs = before.text ++ (value.spelling ++ more) ∧ value.depth ≤ n ∧ t.At more

variable {reader : Read Unit} {n : Nat}

/-- A value is not empty. -/
theorem ReadsValues.left_lt {before : Layout} {value : Syntax} {more : List Char}
    (hs : s.At (before.text ++ (value.spelling ++ more))) (ht : t.At more) : t.left < s.left := by
  rw [← List.append_assoc] at hs
  refine hs.left_lt ht fun h => ?_
  exact value.spelling_ne_nil (List.append_eq_nil_iff.mp h).2

/-- The elements of an array are read, and its end. -/
theorem elements_ok (hreader : ReadsValues reader n) (hs : s.At cs)
    (h : elements reader s = .ok ((), t)) :
    ∃ (inside : Layout) (elements : List (Padded Syntax)) (more : List Char),
      cs = inside.text ++ (Syntax.elementsSpelling true elements ++ ']' :: more) ∧
        Syntax.elementsDepth elements ≤ n ∧ t.At more := by
  obtain ⟨_, u, hloop, hskip⟩ := ok_of_bind h
  cases hskip
  suffices hparts : ∃ (inside : Layout) (elements : List (Padded Syntax)) (more : List Char),
      cs = inside.text ++ (partsSpelling Syntax.spelling true elements ++ ']' :: more) ∧
        (∀ element ∈ elements, element.item.depth ≤ n) ∧ u.next.At more by
    obtain ⟨inside, elements, more, hcs, hdepths, ht⟩ := hparts
    exact ⟨inside, elements, more, elementsSpelling_eq true elements ▸ hcs,
      elementsDepth_le hdepths, ht⟩
  refine parts_ok Syntax.spelling (fun value => value.depth ≤ n) ']' ?_ hs hloop
  clear hs hloop h
  intro first s ⟨first', goOn⟩ u cs hs hturn
  obtain ⟨c?, s₁, hvisible, hstep⟩ := ok_of_bind hturn
  obtain ⟨inside, cs, rfl, hs₁, hhead⟩ := nextVisible?_ok hs hvisible
  have hle := hs.left_le hs₁
  cases c? with
  | none => exact absurd hstep faultAhead_ne
  | some c =>
    dsimp only at hstep
    split at hstep
    next hc =>
      obtain rfl := beq_iff_eq.mp hc
      cases hstep
      obtain ⟨more, rfl, hnext⟩ := hs₁.of_head rfl hhead
      exact .close inside more rfl hnext
    next hclose =>
      split at hstep
      next hfirst =>
        obtain ⟨⟨⟩, u₁, hvalue, hpure⟩ := ok_of_bind hstep
        cases hpure
        obtain ⟨before, element, more, rfl, hdepth, hv⟩ := hreader hs₁ hvalue
        have hless := Nat.lt_of_lt_of_le (ReadsValues.left_lt hs₁ hv) hle
        exact .part inside before element more (hfirst ▸ rfl) hdepth hless hv
      next hfirst =>
        split at hstep
        next hc =>
          obtain rfl := beq_iff_eq.mp hc
          obtain ⟨cs, rfl, hs₂⟩ := hs₁.of_head rfl hhead
          have hcomma := Cursor.next_left_lt hs₁.left hhead
          rw [skip_bind] at hstep
          obtain ⟨d?, s₃, hvisible, hstep⟩ := ok_of_bind hstep
          obtain ⟨gap, cs, rfl, hs₃, hhead⟩ := nextVisible?_ok hs₂ hvisible
          cases d? with
          | none => exact absurd hstep faultAhead_ne
          | some d =>
            dsimp only at hstep
            split at hstep
            · exact absurd hstep faultAhead_ne
            obtain ⟨⟨⟩, u₁, hvalue, hpure⟩ := ok_of_bind hstep
            cases hpure
            obtain ⟨before, element, more, rfl, hdepth, hv⟩ := hreader hs₃ hvalue
            have hvalue_left := Nat.lt_of_lt_of_le (ReadsValues.left_lt hs₃ hv) (hs₂.left_le hs₃)
            have hless := Nat.lt_of_lt_of_le (Nat.lt_trans hvalue_left hcomma) hle
            refine .part inside (gap.append before) element more ?_ hdepth hless hv
            rw [Bool.eq_false_iff.mpr hfirst, Layout.append, List.append_assoc]
            rfl
        · exact absurd hstep faultAhead_ne

/-- A member of an object is read, from the opening quote of its key. -/
theorem member_ok (hreader : ReadsValues reader n) {c : Char} (hc : c = '"') (hs : s.At cs)
    (hhead : s.rest.head? = some c) (h : member reader s = .ok ((), t)) :
    ∃ (member : Member Syntax) (more : List Char), cs = memberSpelling member ++ more ∧
      member.value.depth ≤ n ∧ t.At more := by
  subst hc
  obtain ⟨cs, rfl, hnext⟩ := hs.of_head rfl hhead
  rw [member, skip_bind] at h
  obtain ⟨⟨⟩, s₁, hkey, h⟩ := ok_of_bind h
  obtain ⟨key, cs, rfl, hs₁⟩ := stringRest_ok hnext hkey
  obtain ⟨c?, s₂, hvisible, h⟩ := ok_of_bind h
  obtain ⟨beforeColon, cs, rfl, hs₂, hhead₂⟩ := nextVisible?_ok hs₁ hvisible
  cases c? with
  | none => exact absurd h faultAhead_ne
  | some c =>
    dsimp only at h
    split at h
    next hcolon =>
      obtain rfl := beq_iff_eq.mp hcolon
      obtain ⟨cs, rfl, hs₃⟩ := hs₂.of_head rfl hhead₂
      rw [skip_bind] at h
      obtain ⟨afterColon, value, more, rfl, hdepth, ht⟩ := hreader hs₃ h
      refine ⟨⟨key, beforeColon, afterColon, value⟩, more, ?_, hdepth, ht⟩
      simp only [memberSpelling, stringSpelling, List.cons_append, List.append_assoc,
        List.nil_append]
    · exact absurd h faultAhead_ne

/-- The members of an object are read, and its end. -/
theorem members_ok (hreader : ReadsValues reader n) (hs : s.At cs)
    (h : members reader s = .ok ((), t)) :
    ∃ (inside : Layout) (members : List (Padded (Member Syntax))) (more : List Char),
      cs = inside.text ++ (Syntax.membersSpelling true members ++ '\x7d' :: more) ∧
        Syntax.membersDepth members ≤ n ∧ t.At more := by
  obtain ⟨_, u, hloop, hskip⟩ := ok_of_bind h
  cases hskip
  suffices hparts : ∃ (inside : Layout) (members : List (Padded (Member Syntax)))
      (more : List Char),
      cs = inside.text ++ (partsSpelling memberSpelling true members ++ '\x7d' :: more) ∧
        (∀ member ∈ members, member.item.value.depth ≤ n) ∧ u.next.At more by
    obtain ⟨inside, members, more, hcs, hdepths, ht⟩ := hparts
    exact ⟨inside, members, more, membersSpelling_eq true members ▸ hcs,
      membersDepth_le hdepths, ht⟩
  refine parts_ok memberSpelling (fun member => member.value.depth ≤ n) '\x7d' ?_ hs hloop
  clear hs hloop h
  intro first s ⟨first', goOn⟩ u cs hs hturn
  obtain ⟨c?, s₁, hvisible, hstep⟩ := ok_of_bind hturn
  obtain ⟨inside, cs, rfl, hs₁, hhead⟩ := nextVisible?_ok hs hvisible
  have hle := hs.left_le hs₁
  cases c? with
  | none => exact absurd hstep faultAhead_ne
  | some c =>
    dsimp only at hstep
    split at hstep
    next hc =>
      obtain rfl := beq_iff_eq.mp hc
      cases hstep
      obtain ⟨more, rfl, hnext⟩ := hs₁.of_head rfl hhead
      exact .close inside more rfl hnext
    next hclose =>
      split at hstep
      next hfirst =>
        split at hstep
        next hquote =>
          obtain ⟨⟨⟩, u₁, hmember, hpure⟩ := ok_of_bind hstep
          cases hpure
          obtain ⟨member, more, rfl, hdepth, hv⟩ :=
            member_ok hreader (beq_iff_eq.mp hquote) hs₁ hhead hmember
          have hless := Nat.lt_of_lt_of_le (hs₁.left_lt hv nofun) hle
          exact .part inside ⟨[], nofun⟩ member more (hfirst ▸ rfl) hdepth hless hv
        · exact absurd hstep faultAhead_ne
      next hfirst =>
        split at hstep
        next hc =>
          obtain rfl := beq_iff_eq.mp hc
          obtain ⟨cs, rfl, hs₂⟩ := hs₁.of_head rfl hhead
          have hcomma := Cursor.next_left_lt hs₁.left hhead
          rw [skip_bind] at hstep
          obtain ⟨d?, s₃, hvisible, hstep⟩ := ok_of_bind hstep
          obtain ⟨before, cs, rfl, hs₃, hhead⟩ := nextVisible?_ok hs₂ hvisible
          cases d? with
          | none => exact absurd hstep faultAhead_ne
          | some d =>
            dsimp only at hstep
            split at hstep
            next hquote =>
              obtain ⟨⟨⟩, u₁, hmember, hpure⟩ := ok_of_bind hstep
              cases hpure
              obtain ⟨member, more, rfl, hdepth, hv⟩ :=
                member_ok hreader (beq_iff_eq.mp hquote) hs₃ hhead hmember
              have hvalue_left := Nat.lt_of_lt_of_le (hs₃.left_lt hv nofun) (hs₂.left_le hs₃)
              have hless := Nat.lt_of_lt_of_le (Nat.lt_trans hvalue_left hcomma) hle
              refine .part inside before member more ?_ hdepth hless hv
              rw [Bool.eq_false_iff.mpr hfirst]
              rfl
            · split at hstep
              · exact absurd hstep faultAhead_ne
              · exact absurd hstep faultAhead_ne
        · exact absurd hstep faultAhead_ne

/-! ### Values -/

/-- A value is read if in a container values are read that are nested less deep. -/
theorem valueWith_ok {container? : Option (Bool → Read Unit)} {n : Nat}
    (hcontainer : ∀ container ∈ container?, ∃ reader m, m < n ∧ ReadsValues reader m ∧
      container = fun isArray => if isArray then elements reader else members reader) :
    ReadsValues (valueWith container?) n := by
  intro s t cs hs h
  obtain ⟨c?, s₁, hvisible, h⟩ := ok_of_bind h
  obtain ⟨before, cs, rfl, hs₁, hhead⟩ := nextVisible?_ok hs hvisible
  refine ⟨before, ?_⟩
  suffices hvalue : ∃ (value : Syntax) (more : List Char), cs = value.spelling ++ more ∧
      value.depth ≤ n ∧ t.At more by
    obtain ⟨value, more, rfl, hdepth, ht⟩ := hvalue
    exact ⟨value, more, rfl, hdepth, ht⟩
  cases c? with
  | none => exact absurd h faultAhead_ne
  | some c =>
    dsimp only at h
    split at h
    next hc =>
      obtain ⟨more, rfl, ht⟩ := word_ok (forall_mem_of_all (by decide)) hs₁ h
      exact ⟨.null, more, rfl, Nat.zero_le n, ht⟩
    split at h
    next hc =>
      obtain ⟨more, rfl, ht⟩ := word_ok (forall_mem_of_all (by decide)) hs₁ h
      exact ⟨.boolean true, more, rfl, Nat.zero_le n, ht⟩
    split at h
    next hc =>
      obtain ⟨more, rfl, ht⟩ := word_ok (forall_mem_of_all (by decide)) hs₁ h
      exact ⟨.boolean false, more, rfl, Nat.zero_le n, ht⟩
    split at h
    next hc =>
      obtain rfl := beq_iff_eq.mp hc
      obtain ⟨cs, rfl, hs₂⟩ := hs₁.of_head rfl hhead
      obtain ⟨numeral, more, hnegative, rfl, ht⟩ := number_ok true hs₂ h
      refine ⟨.number numeral, more, ?_, Nat.zero_le n, ht⟩
      simp only [Syntax.spelling, Numeral.spelling, hnegative, if_true, List.append_assoc,
        List.cons_append, List.nil_append]
    split at h
    next hc =>
      obtain ⟨numeral, more, hnegative, rfl, ht⟩ := number_ok false hs₁ h
      refine ⟨.number numeral, more, ?_, Nat.zero_le n, ht⟩
      simp only [Syntax.spelling, Numeral.spelling, hnegative, Bool.false_eq_true, if_false,
        List.append_assoc, List.nil_append]
    split at h
    next hc =>
      obtain rfl := beq_iff_eq.mp hc
      obtain ⟨cs, rfl, hs₂⟩ := hs₁.of_head rfl hhead
      obtain ⟨pieces, more, rfl, ht⟩ := stringRest_ok hs₂ h
      refine ⟨.string pieces, more, ?_, Nat.zero_le n, ht⟩
      simp only [Syntax.spelling, stringSpelling, List.cons_append, List.append_assoc,
        List.nil_append]
    split at h
    next hc =>
      cases container? with
      | none => exact absurd h faultAhead_ne
      | some container =>
        obtain ⟨reader, m, hm, hreader, rfl⟩ := hcontainer container rfl
        dsimp only at h
        rw [skip_bind] at h
        rcases Bool.or_eq_true_iff.mp hc with hc | hc
        · obtain rfl := beq_iff_eq.mp hc
          obtain ⟨cs, rfl, hs₂⟩ := hs₁.of_head rfl hhead
          obtain ⟨inside, elements, more, rfl, hdepth, ht⟩ := elements_ok hreader hs₂ h
          refine ⟨.array inside elements, more, ?_, Nat.lt_of_le_of_lt hdepth hm, ht⟩
          simp only [Syntax.spelling, List.cons_append, List.append_assoc, List.nil_append]
        · obtain rfl := beq_iff_eq.mp hc
          obtain ⟨cs, rfl, hs₂⟩ := hs₁.of_head rfl hhead
          obtain ⟨inside, members, more, rfl, hdepth, ht⟩ := members_ok hreader hs₂ h
          refine ⟨.object inside members, more, ?_, Nat.lt_of_le_of_lt hdepth hm, ht⟩
          simp only [Syntax.spelling, List.cons_append, List.append_assoc, List.nil_append]
    · exact absurd h faultAhead_ne

theorem value_ok : ∀ n, ReadsValues (value n) n
  | 0 => valueWith_ok fun _ h => by cases h
  | n + 1 => valueWith_ok fun _ h =>
    ⟨value n, n, Nat.lt_succ_self n, value_ok n, (Option.some.inj h).symm⟩

end Read

/-- **What the strict check accepts is JSON.** A text with which nothing is wrong is a document,
in which at most so many arrays and objects are nested. -/
theorem exists_document {text : String} (h : check text = none) :
    ∃ document : Document, document.text = text ∧ document.item.depth ≤ Read.depthLimit := by
  have hs := Cursor.At.start text.toList
  rw [String.ofList_toList] at hs
  rw [check] at h
  split at h
  next result hread =>
    obtain ⟨⟨⟩, s₁, hvalue, hrest⟩ := Read.ok_of_bind hread
    obtain ⟨before, value, more, hcs, hdepth, hs₁⟩ := Read.value_ok _ hs hvalue
    obtain ⟨c?, s₂, hvisible, hend⟩ := Read.ok_of_bind hrest
    obtain ⟨after, more, rfl, hs₂, hhead⟩ := Read.nextVisible?_ok hs₁ hvisible
    cases c? with
    | some c => exact absurd hend Read.faultAhead_ne
    | none =>
      rw [hs₂.of_end hhead, List.append_nil] at hcs
      refine ⟨⟨before, value, after⟩, ?_, hdepth⟩
      rw [Document.text, ← hcs, String.ofList_toList]
  · cases h

end Json
end TypedConfig
