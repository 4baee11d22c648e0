/-
# The events of a JSON document

From the tokens of a value the grammar reads the events of a tree that says what the
value says (`Grammar.gives_value`): at every place it is a node without violations, and
the node is one that the value denotes (`Json.Syntax.Expresses`). Each step of the
grammar is an equation about the tokens that are next; the runs of parts compose
(`Grammar.Gives.trans`).

Key definitions: `Json.Syntax.Expresses`, `Grammar.Reaches`, `Grammar.Gives`.
Key theorems: `Grammar.gives_value`, `firstDocument_value`.
-/
import TypedConfig.Proofs.Json.Scanning
import TypedConfig.Proofs.Yaml.TreeBuilder
import TypedConfig.Yaml.Grammar

namespace TypedConfig
namespace Json

open Yaml

/-! ### What a tree of events says -/

namespace Syntax

/-- The tree can be a node wherever it is, and that node is what the value says. -/
def Expresses (value : Syntax) (tree : EventTree) : Prop :=
  ∀ source path, tree.violations source path = [] ∧ value.Denotes (tree.node source path)

def ElementsExpress (elements : List (Padded Syntax)) (trees : List EventTree) : Prop :=
  ∀ source path index, EventTree.elementViolations source path index trees = [] ∧
    ElementsDenote elements (EventTree.elementNodes source path index trees)

/-- The pairs can be entries after those with the given keys. -/
def MembersExpress (keys : List String) (members : List (Padded (Member Syntax)))
    (pairs : List (EventTree × EventTree)) : Prop :=
  ∀ source path, EventTree.pairViolations source path keys pairs = [] ∧
    MembersDenote members (EventTree.pairNodes source path pairs)

theorem expresses_sequence {inside : Layout} {elements : List (Padded Syntax)}
    {trees : List EventTree} (h : ElementsExpress elements trees) (mark : Mark) :
    Expresses (.array inside elements) (.sequence mark trees) := fun source path =>
  ⟨(h source path 0).1, .array inside _ (h source path 0).2⟩

theorem expresses_mapping {inside : Layout} {members : List (Padded (Member Syntax))}
    {pairs : List (EventTree × EventTree)} (h : MembersExpress [] members pairs) (mark : Mark) :
    Expresses (.object inside members) (.mapping mark pairs) := fun source path =>
  ⟨(h source path).1, .object inside _ (h source path).2⟩

theorem elementsExpress_cons {before after : Layout} {element : Syntax}
    {elements : List (Padded Syntax)} {tree : EventTree} {trees : List EventTree}
    (h : element.Expresses tree) (hs : ElementsExpress elements trees) :
    ElementsExpress (⟨before, element, after⟩ :: elements) (tree :: trees) := by
  intro source path index
  obtain ⟨hv, hd⟩ := h source (elementPath path index)
  obtain ⟨hvs, hds⟩ := hs source path (index + 1)
  refine ⟨?_, .cons hd hds⟩
  rw [EventTree.elementViolations, hv, hvs]
  rfl

theorem membersExpress_cons {before beforeColon afterColon after : Layout}
    {key : List StringPiece} {value : Syntax} {members : List (Padded (Member Syntax))}
    {keys : List String} {tree : EventTree} {pairs : List (EventTree × EventTree)}
    (hkey : stringMeaning key ∉ keys) (h : value.Expresses tree)
    (hs : MembersExpress (keys ++ [stringMeaning key]) members pairs) (mark : Mark)
    (style : ScalarStyle) :
    MembersExpress keys (⟨before, ⟨key, beforeColon, afterColon, value⟩, after⟩ :: members)
      ((.scalar mark style (stringMeaning key), tree) :: pairs) := by
  intro source path
  obtain ⟨hv, hd⟩ := h source (childPath path (stringMeaning key))
  obtain ⟨hvs, hds⟩ := hs source path
  refine ⟨?_, .cons hd hds⟩
  change (if _ then _ else _) ++ (EventTree.violations source (childPath path (stringMeaning key))
    tree ++ EventTree.pairViolations source path (keys ++ [stringMeaning key]) pairs) = []
  rw [if_neg hkey, hv, hvs]
  rfl

end Syntax

/-! ### Reading events -/

end Json

namespace Yaml
namespace Grammar

variable {g g' g'' : Grammar} {event : Event} {events events' : List Event}

/-- The grammar with these tokens ahead, when this is expected. -/
def before (g : Grammar) (tokens : List Token) (expected : List Expectation) : Grammar :=
  { g with tokens, expected }

/-- The events lead from one state to another. -/
def Reaches (g : Grammar) (events : List Event) (g' : Grammar) : Prop :=
  ∀ n before, run (n + events.length) g before = run n g' (events.reverse ++ before)

/-- The step is the first that these events take. -/
def Gives (x : Step Event) (g : Grammar) (events : List Event) (g' : Grammar) : Prop :=
  ∃ event rest g₁, x g = .ok (event, g₁) ∧ event ≠ .documentEnd ∧ event ≠ .streamEnd ∧
    Reaches g₁ rest g' ∧ events = event :: rest

theorem Reaches.refl (g : Grammar) : Reaches g [] g := fun _ _ => rfl

theorem Reaches.trans (h : Reaches g events g') (h' : Reaches g' events' g'') :
    Reaches g (events ++ events') g'' := by
  intro n before
  rw [List.length_append, Nat.add_comm events.length, ← Nat.add_assoc, h, h',
    List.reverse_append, List.append_assoc]

theorem Gives.reaches {x : Step Event} (h : Gives x g events g') (hx : step g = x g) :
    Reaches g events g' := by
  obtain ⟨event, rest, g₁, hstep, hne, hne', hrest, rfl⟩ := h
  intro n before
  rw [List.length_cons, ← Nat.add_assoc, run, hx, hstep]
  dsimp only
  rw [if_neg (not_or.mpr ⟨hne, hne'⟩), hrest, List.reverse_cons, List.append_assoc,
    List.singleton_append]

theorem Gives.trans {x : Step Event} (h : Gives x g events g') (h' : Reaches g' events' g'') :
    Gives x g (events ++ events') g'' := by
  obtain ⟨event, rest, g₁, hstep, hne, hne', hrest, rfl⟩ := h
  exact ⟨event, rest ++ events', g₁, hstep, hne, hne', hrest.trans h', rfl⟩

theorem Gives.of_eq {x y : Step Event} (h : Gives x g' events g'') (hx : y g = x g') :
    Gives y g events g'' := by
  obtain ⟨event, rest, g₁, hstep, h⟩ := h
  exact ⟨event, rest, g₁, hx.trans hstep, h⟩

theorem Gives.single {x : Step Event} (h : x g = .ok (event, g')) (hne : event ≠ .documentEnd)
    (hne' : event ≠ .streamEnd) : Gives x g [event] g' :=
  ⟨event, [], g', h, hne, hne', .refl g', rfl⟩

/-! ### The events of JSON -/

open Json

/-- A token that stands for a value by itself or begins one. -/
def startsValue (kind : TokenKind) : Bool :=
  match kind with
  | .scalar .. | .flowSequenceStart | .flowMappingStart => true
  | _ => false

theorem flowEntry_first {token : Token} (h : startsValue token.kind = true) (tokens : List Token)
    (expected : List Expectation) (e : Expectation) :
    flowEntry true (g.before (token :: tokens) (e :: expected)) =
      node false false (g.before (token :: tokens) (.node :: .flowEntry false :: expected)) := by
  obtain ⟨mark, kind⟩ := token
  cases kind <;> first | rfl | cases h

theorem flowEntry_comma {comma token : Token} (hc : comma.kind = .flowEntry)
    (h : startsValue token.kind = true) (tokens : List Token) (expected : List Expectation)
    (e : Expectation) :
    flowEntry false (g.before (comma :: token :: tokens) (e :: expected)) =
      node false false (g.before (token :: tokens) (.node :: .flowEntry false :: expected)) := by
  obtain ⟨mark, kind⟩ := token
  obtain ⟨mark', kind'⟩ := comma
  cases hc
  cases kind <;> first | rfl | cases h

theorem flowEntry_end {close : Token} (hc : close.kind = .flowSequenceEnd) (first : Bool)
    (tokens : List Token) (expected : List Expectation) (e : Expectation) :
    flowEntry first (g.before (close :: tokens) (e :: expected)) =
      .ok (.sequenceEnd, g.before tokens expected) := by
  obtain ⟨mark, kind⟩ := close
  cases hc
  cases first <;> rfl

theorem flowKey_end {close : Token} (hc : close.kind = .flowMappingEnd) (first : Bool)
    (tokens : List Token) (expected : List Expectation) (e : Expectation) :
    flowKey first (g.before (close :: tokens) (e :: expected)) =
      .ok (.mappingEnd, g.before tokens expected) := by
  obtain ⟨mark, kind⟩ := close
  cases hc
  cases first <;> rfl

theorem flowKey_first {token key : Token} {style : ScalarStyle} {text : String}
    (ht : token.kind = .key) (h : key.kind = .scalar style text) (tokens : List Token)
    (expected : List Expectation) (e : Expectation) :
    flowKey true (g.before (token :: key :: tokens) (e :: expected)) =
      .ok (.scalar key.mark style text, g.before tokens (.flowValue :: expected)) := by
  obtain ⟨mark, kind⟩ := token
  obtain ⟨mark', kind'⟩ := key
  cases ht
  cases h
  rfl

theorem flowKey_comma {comma token key : Token} {style : ScalarStyle} {text : String}
    (hc : comma.kind = .flowEntry) (ht : token.kind = .key) (h : key.kind = .scalar style text)
    (tokens : List Token) (expected : List Expectation) (e : Expectation) :
    flowKey false (g.before (comma :: token :: key :: tokens) (e :: expected)) =
      .ok (.scalar key.mark style text, g.before tokens (.flowValue :: expected)) := by
  obtain ⟨mark, kind⟩ := token
  obtain ⟨mark', kind'⟩ := key
  obtain ⟨mark'', kind''⟩ := comma
  cases hc
  cases ht
  cases h
  rfl

theorem flowValue_value {value token : Token} (hv : value.kind = .value)
    (h : startsValue token.kind = true) (tokens : List Token) (expected : List Expectation)
    (e : Expectation) :
    flowValue (g.before (value :: token :: tokens) (e :: expected)) =
      node false false (g.before (token :: tokens) (.node :: .flowKey false :: expected)) := by
  obtain ⟨mark, kind⟩ := token
  obtain ⟨mark', kind'⟩ := value
  cases hv
  cases kind <;> first | rfl | cases h

theorem node_scalar {token : Token} {style : ScalarStyle} {text : String}
    (h : token.kind = .scalar style text) (block bare : Bool) (tokens : List Token)
    (expected : List Expectation) (e : Expectation) :
    node block bare (g.before (token :: tokens) (e :: expected)) =
      .ok (.scalar token.mark style text, g.before tokens expected) := by
  obtain ⟨mark, kind⟩ := token
  cases h
  cases block <;> cases bare <;> rfl

theorem node_flowSequence {token : Token} (h : token.kind = .flowSequenceStart)
    (block bare : Bool) (tokens : List Token) (expected : List Expectation) (e : Expectation) :
    node block bare (g.before (token :: tokens) (e :: expected)) =
      .ok (.sequenceStart token.mark,
        g.before (token :: tokens) (.flowEntry true :: expected)) := by
  obtain ⟨mark, kind⟩ := token
  cases h
  cases block <;> cases bare <;> rfl

theorem node_flowMapping {token : Token} (h : token.kind = .flowMappingStart)
    (block bare : Bool) (tokens : List Token) (expected : List Expectation) (e : Expectation) :
    node block bare (g.before (token :: tokens) (e :: expected)) =
      .ok (.mappingStart token.mark,
        g.before (token :: tokens) (.flowKey true :: expected)) := by
  obtain ⟨mark, kind⟩ := token
  cases h
  cases block <;> cases bare <;> rfl

theorem exists_close {ts : List Token} {kinds : List TokenKind} {kind : TokenKind}
    (h : ts.map (·.kind) = kinds ++ [kind]) :
    ∃ ts' close, ts = ts' ++ [close] ∧ ts'.map (·.kind) = kinds ∧ close.kind = kind := by
  obtain ⟨ts', last, rfl, hinit, hlast⟩ := List.map_eq_append_iff.mp h
  obtain ⟨close, rest, rfl, hclose, hrest⟩ := List.map_eq_cons_iff.mp hlast
  obtain rfl := List.map_eq_nil_iff.mp hrest
  exact ⟨ts', close, rfl, hinit, hclose⟩

theorem document_value {token : Token} (h : startsValue token.kind = true)
    (tokens : List Token) :
    document (g.before (token :: tokens) [.document]) =
      .ok (.documentStart, g.before (token :: tokens) [.node, .documentEnd]) := by
  obtain ⟨mark, kind⟩ := token
  cases kind <;> first | rfl | cases h

theorem exists_startsValue (value : Json.Syntax) :
    ∃ kind kinds, value.tokens = kind :: kinds ∧ startsValue kind = true := by
  cases value <;> exact ⟨_, _, rfl, rfl⟩

theorem expresses_plain {text : String} {value : Json.Syntax}
    (h : ∀ place, value.Denotes (plainNode text place)) (mark : Mark) :
    value.Expresses (.scalar mark .plain text) := fun source path =>
  ⟨rfl, h ⟨mark.position source, path⟩⟩

/-- A scalar is read as a value that it says. -/
theorem gives_scalar {value : Json.Syntax} {style : ScalarStyle} {text : String} {ts : List Token}
    (hts : ts.map (·.kind) = [.scalar style text])
    (h : ∀ mark, value.Expresses (.scalar mark style text)) (block bare : Bool)
    (more : List Token) (e : Expectation) (expected : List Expectation) :
    ∃ tree, value.Expresses tree ∧ tree.events.length ≤ ts.length ∧
      Gives (node block bare) (g.before (ts ++ more) (e :: expected)) tree.events
        (g.before more expected) := by
  obtain ⟨token, ts, rfl, hkind, hnil⟩ := List.map_eq_cons_iff.mp hts
  obtain rfl := List.map_eq_nil_iff.mp hnil
  exact ⟨.scalar token.mark style text, h token.mark, Nat.le_refl 1,
    .single (node_scalar hkind block bare more expected e) nofun nofun⟩

mutual

/-- The tokens of a value give the events of a tree that says what the value says. -/
theorem gives_value : ∀ (value : Json.Syntax) {g : Grammar} {ts : List Token},
    ts.map (·.kind) = value.tokens → (∀ part ∈ value.parts, part.Readable ∧ part.DistinctKeys) →
    ∀ (block bare : Bool) (more : List Token) (e : Expectation) (expected : List Expectation),
      ∃ tree, value.Expresses tree ∧ tree.events.length ≤ ts.length ∧
        Gives (node block bare) (g.before (ts ++ more) (e :: expected)) tree.events
          (g.before more expected)
  | .null, g, ts, hts, _, block, bare, more, e, expected =>
    gives_scalar hts (expresses_plain fun place => .null place) block bare more e expected
  | .boolean true, g, ts, hts, _, block, bare, more, e, expected =>
    gives_scalar hts (expresses_plain fun place => .boolean true place) block bare more e expected
  | .boolean false, g, ts, hts, _, block, bare, more, e, expected =>
    gives_scalar hts (expresses_plain fun place => .boolean false place) block bare more e expected
  | .number numeral, g, ts, hts, hr, block, bare, more, e, expected =>
    gives_scalar hts (expresses_plain (numeral.denotes_plainNode (hr _ List.mem_cons_self).1))
      block bare more e expected
  | .string pieces, g, ts, hts, _, block, bare, more, e, expected =>
    gives_scalar hts (fun mark source path => ⟨rfl, .string pieces _⟩) block bare more e expected
  | .array inside elements, g, ts, hts, hr, block, bare, more, e, expected => by
    obtain ⟨start, ts₁, rfl, hstart, hts₁⟩ := List.map_eq_cons_iff.mp hts
    obtain ⟨ts₂, close, rfl, hts₂, hclose⟩ := exists_close hts₁
    obtain ⟨trees, hexpress, hlen, hgives⟩ := gives_elements elements true hts₂ hclose
      (fun part hp => hr part (List.mem_cons_of_mem _ hp)) (g := g) more (.flowEntry true) expected
    refine ⟨.sequence start.mark trees, Json.Syntax.expresses_sequence hexpress _, ?_, ?_⟩
    · simp only [EventTree.events, List.length_append, List.length_cons, List.length_nil]
      omega
    rw [List.cons_append, List.append_assoc, List.singleton_append]
    have hentries : Reaches
        (g.before (start :: (ts₂ ++ close :: more)) (.flowEntry true :: expected))
        (EventTree.elementEvents trees ++ [.sequenceEnd]) (g.before more expected) :=
      (hgives.of_eq (y := step) rfl).reaches rfl
    exact (Gives.single (node_flowSequence hstart block bare _ expected e) nofun nofun).trans
      hentries
  | .object inside members, g, ts, hts, hr, block, bare, more, e, expected => by
    obtain ⟨start, ts₁, rfl, hstart, hts₁⟩ := List.map_eq_cons_iff.mp hts
    obtain ⟨ts₂, close, rfl, hts₂, hclose⟩ := exists_close hts₁
    have hkeys : ([] ++ Json.Syntax.keys members).Nodup := (hr _ List.mem_cons_self).2
    obtain ⟨pairs, hexpress, hlen, hgives⟩ := gives_members members true hts₂ hclose
      (fun part hp => hr part (List.mem_cons_of_mem _ hp)) hkeys (g := g) more (.flowKey true)
      expected
    refine ⟨.mapping start.mark pairs, Json.Syntax.expresses_mapping hexpress _, ?_, ?_⟩
    · simp only [EventTree.events, List.length_append, List.length_cons, List.length_nil]
      omega
    rw [List.cons_append, List.append_assoc, List.singleton_append]
    have hentries : Reaches
        (g.before (start :: (ts₂ ++ close :: more)) (.flowKey true :: expected))
        (EventTree.pairEvents pairs ++ [.mappingEnd]) (g.before more expected) :=
      (hgives.of_eq (y := step) rfl).reaches rfl
    exact (Gives.single (node_flowMapping hstart block bare _ expected e) nofun nofun).trans
      hentries

/-- The tokens of elements up to the end of the array give the events of trees. -/
theorem gives_elements : ∀ (elements : List (Padded Json.Syntax)) (first : Bool) {g : Grammar}
    {ts : List Token} {close : Token},
    ts.map (·.kind) = Json.Syntax.elementsTokens first elements → close.kind = .flowSequenceEnd →
    (∀ part ∈ Json.Syntax.elementParts elements, part.Readable ∧ part.DistinctKeys) →
    ∀ (more : List Token) (e : Expectation) (expected : List Expectation),
      ∃ trees, Json.Syntax.ElementsExpress elements trees ∧
        (EventTree.elementEvents trees).length ≤ ts.length ∧
        Gives (flowEntry first) (g.before (ts ++ close :: more) (e :: expected))
          (EventTree.elementEvents trees ++ [.sequenceEnd]) (g.before more expected)
  | [], first, g, ts, close, hts, hclose, _, more, e, expected => by
    obtain rfl := List.map_eq_nil_iff.mp hts
    exact ⟨[], fun source path index => ⟨rfl, .nil⟩, Nat.le_refl 0,
      .single (flowEntry_end hclose first more expected e) nofun nofun⟩
  | ⟨before, element, after⟩ :: elements, first, g, ts, close, hts, hclose, hr, more, e,
      expected => by
    obtain ⟨lead, ts₁, rfl, hlead, hts₁⟩ := List.map_eq_append_iff.mp hts
    obtain ⟨tokens, ts₂, rfl, htokens, hts₂⟩ := List.map_eq_append_iff.mp hts₁
    obtain ⟨trees, hexpress, hlen, hgives⟩ := gives_elements elements false hts₂ hclose
      (fun part hp => hr part (List.mem_append_right _ hp)) (g := g) more (.flowEntry false)
      expected
    obtain ⟨tree, hexpress', hlen', hgives'⟩ := gives_value element htokens
      (fun part hp => hr part (List.mem_append_left _ hp)) (g := g) false false
      (ts₂ ++ close :: more) .node (.flowEntry false :: expected)
    refine ⟨tree :: trees, Json.Syntax.elementsExpress_cons hexpress' hexpress, ?_, ?_⟩
    · simp only [EventTree.elementEvents, List.length_append]
      omega
    simp only [EventTree.elementEvents, List.append_assoc]
    refine (hgives'.trans (hgives.reaches rfl)).of_eq ?_
    -- the first token of the element is behind the comma, if there is one
    obtain ⟨kind, kinds, hkinds, hstarts⟩ := exists_startsValue element
    obtain ⟨token, tokens, rfl, hkind, -⟩ := List.map_eq_cons_iff.mp (htokens.trans hkinds)
    cases first with
    | true =>
      obtain rfl := List.map_eq_nil_iff.mp hlead
      simp only [List.nil_append, List.cons_append]
      exact flowEntry_first (hkind ▸ hstarts) _ expected e
    | false =>
      obtain ⟨comma, rest, rfl, hcomma, hrest⟩ := List.map_eq_cons_iff.mp hlead
      obtain rfl := List.map_eq_nil_iff.mp hrest
      simp only [List.nil_append, List.cons_append]
      exact flowEntry_comma hcomma (hkind ▸ hstarts) _ expected e

/-- The tokens of members up to the end of the object give the events of pairs. -/
theorem gives_members : ∀ (members : List (Padded (Member Json.Syntax))) (first : Bool)
    {g : Grammar} {ts : List Token} {close : Token} {keys : List String},
    ts.map (·.kind) = Json.Syntax.membersTokens first members → close.kind = .flowMappingEnd →
    (∀ part ∈ Json.Syntax.memberParts members, part.Readable ∧ part.DistinctKeys) →
    (keys ++ Json.Syntax.keys members).Nodup →
    ∀ (more : List Token) (e : Expectation) (expected : List Expectation),
      ∃ pairs, Json.Syntax.MembersExpress keys members pairs ∧
        (EventTree.pairEvents pairs).length ≤ ts.length ∧
        Gives (flowKey first) (g.before (ts ++ close :: more) (e :: expected))
          (EventTree.pairEvents pairs ++ [.mappingEnd]) (g.before more expected)
  | [], first, g, ts, close, keys, hts, hclose, _, _, more, e, expected => by
    obtain rfl := List.map_eq_nil_iff.mp hts
    exact ⟨[], fun source path => ⟨rfl, .nil⟩, Nat.le_refl 0,
      .single (flowKey_end hclose first more expected e) nofun nofun⟩
  | ⟨before, ⟨key, beforeColon, afterColon, value⟩, after⟩ :: members, first, g, ts, close, keys,
      hts, hclose, hr, hkeys, more, e, expected => by
    obtain ⟨lead, ts₁, rfl, hlead, hts₁⟩ := List.map_eq_append_iff.mp hts
    obtain ⟨mark, ts₂, rfl, hmark, hts₂⟩ := List.map_eq_cons_iff.mp hts₁
    obtain ⟨scalar, ts₃, rfl, hscalar, hts₃⟩ := List.map_eq_cons_iff.mp hts₂
    obtain ⟨colon, ts₄, rfl, hcolon, hts₄⟩ := List.map_eq_cons_iff.mp hts₃
    obtain ⟨tokens, ts₅, rfl, htokens, hts₅⟩ := List.map_eq_append_iff.mp hts₄
    obtain ⟨hkey, hkeys'⟩ : stringMeaning key ∉ keys ∧
        (keys ++ [stringMeaning key] ++ Json.Syntax.keys members).Nodup := by
      have h : (keys ++ stringMeaning key :: Json.Syntax.keys members).Nodup := hkeys
      refine ⟨fun hm => (List.nodup_append.mp h).2.2 _ hm _ List.mem_cons_self rfl, ?_⟩
      rwa [List.append_assoc, List.singleton_append]
    obtain ⟨pairs, hexpress, hlen, hgives⟩ := gives_members members false hts₅ hclose
      (fun part hp => hr part (List.mem_append_right _ hp)) hkeys' (g := g) more (.flowKey false)
      expected
    obtain ⟨tree, hexpress', hlen', hgives'⟩ := gives_value value htokens
      (fun part hp => hr part (List.mem_append_left _ hp)) (g := g) false false
      (ts₅ ++ close :: more) .node (.flowKey false :: expected)
    refine ⟨(.scalar scalar.mark .doubleQuoted (stringMeaning key), tree) :: pairs,
      Json.Syntax.membersExpress_cons hkey hexpress' hexpress _ _, ?_, ?_⟩
    · simp only [EventTree.pairEvents, EventTree.events, List.length_append, List.length_cons,
        List.length_nil]
      omega
    obtain ⟨kind, kinds, hkinds, hstarts⟩ := exists_startsValue value
    obtain ⟨token, tokens, rfl, hkind, -⟩ := List.map_eq_cons_iff.mp (htokens.trans hkinds)
    have hvalue : Reaches
        (g.before (colon :: token :: (tokens ++ (ts₅ ++ close :: more))) (.flowValue :: expected))
        (tree.events ++ (EventTree.pairEvents pairs ++ [.mappingEnd])) (g.before more expected) :=
      ((hgives'.of_eq (y := flowValue) (flowValue_value hcolon (hkind ▸ hstarts) _ expected
        .flowValue)).reaches rfl).trans (hgives.reaches rfl)
    simp only [EventTree.pairEvents, EventTree.events, List.append_assoc, List.cons_append,
      List.nil_append]
    cases first with
    | true =>
      obtain rfl := List.map_eq_nil_iff.mp hlead
      simp only [List.nil_append]
      exact (Gives.single (flowKey_first hmark hscalar _ expected e) nofun nofun).trans hvalue
    | false =>
      obtain ⟨comma, rest, rfl, hcomma, hrest⟩ := List.map_eq_cons_iff.mp hlead
      obtain rfl := List.map_eq_nil_iff.mp hrest
      simp only [List.nil_append, List.cons_append]
      exact (Gives.single (flowKey_comma hcomma hmark hscalar _ expected e) nofun nofun).trans
        hvalue

end

end Grammar

open Grammar in
/-- The first document of such tokens is a tree that says what the value says. -/
theorem firstDocument_value {value : Json.Syntax} {tokens : List Token}
    (htokens : tokens.map (·.kind) = .streamStart :: (value.tokens ++ [.streamEnd]))
    (hr : ∀ part ∈ value.parts, part.Readable ∧ part.DistinctKeys) :
    ∃ tree, value.Expresses tree ∧
      firstDocument ⟨tokens, none⟩ =
        .ok (documentEvents tree) := by
  obtain ⟨start, ts₁, rfl, hstart, hts₁⟩ := List.map_eq_cons_iff.mp htokens
  obtain ⟨ts, close, rfl, hts, hclose⟩ := exists_close hts₁
  let g : Grammar := ⟨[], ⟨.missingToken, .start⟩, [], [], []⟩
  obtain ⟨tree, hexpress, hlen, hgives⟩ := gives_value value hts hr (g := g) true false
    [close] .node [.documentEnd]
  refine ⟨tree, hexpress, ?_⟩
  obtain ⟨kind, kinds, hkinds, hstarts⟩ := exists_startsValue value
  obtain ⟨token, tokens, rfl, hkind, -⟩ := List.map_eq_cons_iff.mp (hts.trans hkinds)
  let events := Event.streamStart :: .documentStart :: tree.events
  have hreaches : Reaches (g.before (start :: token :: (tokens ++ [close])) [.stream]) events
      (g.before [close] [.documentEnd]) := by
    have hstream : Gives step (g.before (start :: token :: (tokens ++ [close])) [.stream])
        [.streamStart] (g.before (token :: (tokens ++ [close])) [.document]) :=
      .single rfl nofun nofun
    have hdocument : Gives document (g.before (token :: (tokens ++ [close])) [.document])
        [.documentStart] (g.before (token :: (tokens ++ [close])) [.node, .documentEnd]) :=
      .single (document_value (hkind ▸ hstarts) _) nofun nofun
    exact (hstream.reaches rfl).trans ((hdocument.reaches rfl).trans (hgives.reaches rfl))
  have hend : step (g.before [close] [.documentEnd]) =
      .ok (.documentEnd, g.before [close] [.documentEnd]) := by
    obtain ⟨mark, kind'⟩ := close
    cases hclose
    rfl
  obtain ⟨n, hn⟩ : ∃ n, 4 * (start :: (token :: tokens ++ [close])).length + 4 =
      n + 1 + events.length := by
    simp only [events, List.length_cons, List.length_append, List.length_nil] at hlen ⊢
    exact ⟨4 * (tokens.length + 3) + 1 - tree.events.length, by omega⟩
  rw [firstDocument, hn]
  refine (hreaches (n + 1) []).trans ?_
  rw [run, hend]
  dsimp only
  rw [if_pos (Or.inl rfl), List.append_nil, List.reverse_cons, List.reverse_reverse]
  rfl

end Yaml
end TypedConfig
