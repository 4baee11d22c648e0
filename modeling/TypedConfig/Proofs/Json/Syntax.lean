/-
# The syntax of JSON

A JSON document as it is written: values, and the layout around them. A string is a
row of pieces, each of which stands for one character; a character beyond the
basic plane may be written by the codes of two surrogates. What a document says is
a relation to nodes (`Syntax.Denotes`). Not all of JSON is YAML in the same meaning:
`Syntax.Readable` says of a value whether it is.

Key definitions: `StringPiece`, `Numeral`, `Syntax`, `Syntax.spelling`, `Syntax.depth`,
`Syntax.parts`, `Syntax.Readable`, `Syntax.DistinctKeys`, `Syntax.Denotes`, `Document`.
-/
import TypedConfig.Node
import TypedConfig.Number.Decimal

namespace TypedConfig

/-- Looks at each member of a list in turn. -/
theorem forall_mem_of_all {α : Type} {as : List α} {p : α → Prop} [DecidablePred p]
    (h : (as.all fun a => decide (p a)) = true) : ∀ a ∈ as, p a := fun a ha =>
  of_decide_eq_true (List.all_eq_true.mp h a ha)

namespace Json

/-! ### Strings -/

/-- Four digits to base sixteen. -/
structure CodeUnit where
  digits : List Char
  length_eq : digits.length = 4
  hex : digits.all Text.isHexDigit = true

/-- The number that the digits write. -/
def CodeUnit.value (unit : CodeUnit) : Nat :=
  unit.digits.foldl (fun code c => 16 * code + Text.hexValue c) 0

/-- Whether the code unit is half of a character. -/
def CodeUnit.isSurrogate (unit : CodeUnit) : Bool :=
  0xd800 ≤ unit.value && unit.value < 0xe000

/-- The letters of short escapes and the characters they stand for. -/
def letterEscapes : List (Char × Char) :=
  [('"', '"'), ('\\', '\\'), ('/', '/'), ('b', '\x08'), ('f', '\x0c'), ('n', '\n'),
   ('r', '\r'), ('t', '\t')]

/-- A piece of a string. -/
inductive StringPiece where
  /-- A character that stands for itself. -/
  | plain (c : Char) (h : c ≠ '"' ∧ c ≠ '\\' ∧ 0x20 ≤ c.toNat)
  | letter (escape : Char × Char) (h : escape ∈ letterEscapes)
  | code (unit : CodeUnit) (h : unit.isSurrogate = false)
  /-- Two code units, which are halves of one character. -/
  | surrogates (first second : CodeUnit) (hf : 0xd800 ≤ first.value ∧ first.value < 0xdc00)
      (hs : 0xdc00 ≤ second.value ∧ second.value < 0xe000)

namespace StringPiece

/-- How the piece is written. -/
def spelling : StringPiece → List Char
  | .plain c _ => [c]
  | .letter escape _ => ['\\', escape.1]
  | .code unit _ => '\\' :: 'u' :: unit.digits
  | .surrogates first second _ _ =>
    '\\' :: 'u' :: first.digits ++ '\\' :: 'u' :: second.digits

/-- The character for which the piece stands. -/
def meaning : StringPiece → Char
  | .plain c _ => c
  | .letter escape _ => escape.2
  | .code unit _ => Char.ofNat unit.value
  | .surrogates first second _ _ =>
    Char.ofNat (0x10000 + (first.value - 0xd800) * 0x400 + (second.value - 0xdc00))

/-- Whether the piece is a character written as two surrogates. -/
def isSurrogates : StringPiece → Bool
  | .surrogates .. => true
  | _ => false

end StringPiece

/-- The pieces of a string, one after another. -/
def bodySpelling (pieces : List StringPiece) : List Char := pieces.flatMap (·.spelling)

theorem bodySpelling_cons (piece : StringPiece) (pieces : List StringPiece) :
    bodySpelling (piece :: pieces) = piece.spelling ++ bodySpelling pieces :=
  List.flatMap_cons

/-- A string as it is written. -/
def stringSpelling (pieces : List StringPiece) : List Char := '"' :: bodySpelling pieces ++ ['"']

/-- The text for which a string stands. -/
def stringMeaning (pieces : List StringPiece) : String := String.ofList (pieces.map (·.meaning))

/-! ### Numbers -/

/-- A power of ten, as it is written. -/
structure Power where
  letter : Char
  sign : List Char
  digits : List Char
  letter_eq : letter = 'e' ∨ letter = 'E'
  sign_eq : sign = [] ∨ sign = ['+'] ∨ sign = ['-']
  isDigits : Number.isDigits digits = true

namespace Power

def spelling (power : Power) : List Char := power.letter :: power.sign ++ power.digits

/-- The exponent. -/
def value (power : Power) : Int :=
  Number.withSign (power.sign == ['-']) (Number.digitsValue power.digits)

end Power

/-- A number, as it is written. Without places it has no point. -/
structure Numeral where
  negative : Bool
  whole : List Char
  places : List Char
  power? : Option Power
  isDigits : Number.isDigits whole = true
  nought : whole.head? = some '0' → whole = ['0']
  places_digits : places.all Text.isDigit = true

namespace Numeral

/-- The fraction, as it is written. -/
def fraction (numeral : Numeral) : List Char :=
  if numeral.places.isEmpty then [] else '.' :: numeral.places

/-- The power of ten, as it is written. -/
def power (numeral : Numeral) : List Char := (numeral.power?.map (·.spelling)).getD []

def spelling (numeral : Numeral) : List Char :=
  (if numeral.negative then ['-'] else []) ++
    (numeral.whole ++ (numeral.fraction ++ numeral.power))

/-- Whether the number has neither a fraction nor a power of ten. -/
def isWhole (numeral : Numeral) : Bool := numeral.places.isEmpty && numeral.power?.isNone

/-- The value of a number without fraction and power of ten. -/
def value (numeral : Numeral) : Int :=
  Number.withSign numeral.negative (Number.digitsValue numeral.whole)

/-- The double nearest to the number. -/
def double (numeral : Numeral) : Double :=
  Number.Decimal.toDouble
    ⟨numeral.negative, Number.digitsValue (numeral.whole ++ numeral.places),
      (numeral.power?.map (·.value)).getD 0 - numeral.places.length⟩

end Numeral

/-! ### Values -/

/-- Spaces, tabs and line breaks. -/
structure Layout where
  text : List Char
  blank : ∀ c ∈ text, c = ' ' ∨ c = '\t' ∨ c = '\n' ∨ c = '\r'

/-- One layout after another. -/
def Layout.append (first second : Layout) : Layout where
  text := first.text ++ second.text
  blank := List.forall_mem_append.mpr ⟨first.blank, second.blank⟩

/-- Something with layout around it. -/
structure Padded (α : Type) where
  before : Layout
  item : α
  after : Layout

/-- A member of an object. -/
structure Member (α : Type) where
  key : List StringPiece
  beforeColon : Layout
  afterColon : Layout
  value : α

/-- A value. The layout inside of a container comes before that of its first part. -/
inductive Syntax where
  | null
  | boolean (value : Bool)
  | number (numeral : Numeral)
  | string (pieces : List StringPiece)
  | array (inside : Layout) (elements : List (Padded Syntax))
  | object (inside : Layout) (members : List (Padded (Member Syntax)))

namespace Syntax

/-- What stands in front of a part of a container: a comma, unless it is the first one. -/
def separator (first : Bool) : List Char := if first then [] else [',']

mutual

/-- How a value is written. -/
def spelling : Syntax → List Char
  | .null => "null".toList
  | .boolean value => (if value then "true" else "false").toList
  | .number numeral => numeral.spelling
  | .string pieces => stringSpelling pieces
  | .array inside elements => '[' :: (inside.text ++ (elementsSpelling true elements ++ [']']))
  | .object inside members =>
    '\x7b' :: (inside.text ++ (membersSpelling true members ++ ['\x7d']))

def elementsSpelling (first : Bool) : List (Padded Syntax) → List Char
  | [] => []
  | ⟨before, element, after⟩ :: elements =>
    separator first ++ (before.text ++ (element.spelling ++
      (after.text ++ elementsSpelling false elements)))

def membersSpelling (first : Bool) : List (Padded (Member Syntax)) → List Char
  | [] => []
  | ⟨before, ⟨key, beforeColon, afterColon, value⟩, after⟩ :: members =>
    separator first ++ (before.text ++ (stringSpelling key ++ (beforeColon.text ++
      (':' :: (afterColon.text ++ (value.spelling ++
        (after.text ++ membersSpelling false members)))))))

end

theorem spelling_ne_nil (value : Syntax) : value.spelling ≠ [] := by
  intro h
  cases value with
  | null => cases h
  | boolean value => cases value <;> cases h
  | number numeral =>
    have hwhole := (List.append_eq_nil_iff.mp (List.append_eq_nil_iff.mp h).2).1
    have hdigits := numeral.isDigits
    rw [hwhole] at hdigits
    cases hdigits
  | string pieces => cases h
  | array inside elements => cases h
  | object inside members => cases h

mutual

/-- How many arrays and objects are nested in one another. -/
def depth : Syntax → Nat
  | .null | .boolean _ | .number _ | .string _ => 0
  | .array _ elements => elementsDepth elements + 1
  | .object _ members => membersDepth members + 1

def elementsDepth : List (Padded Syntax) → Nat
  | [] => 0
  | ⟨_, element, _⟩ :: elements => max element.depth (elementsDepth elements)

def membersDepth : List (Padded (Member Syntax)) → Nat
  | [] => 0
  | ⟨_, ⟨_, _, _, value⟩, _⟩ :: members => max value.depth (membersDepth members)

end

mutual

/-- All values in a value, and that itself. -/
def parts : Syntax → List Syntax
  | .null => [.null]
  | .boolean value => [.boolean value]
  | .number numeral => [.number numeral]
  | .string pieces => [.string pieces]
  | .array inside elements => .array inside elements :: elementParts elements
  | .object inside members => .object inside members :: memberParts members

def elementParts : List (Padded Syntax) → List Syntax
  | [] => []
  | ⟨_, element, _⟩ :: elements => element.parts ++ elementParts elements

def memberParts : List (Padded (Member Syntax)) → List Syntax
  | [] => []
  | ⟨_, ⟨_, _, _, value⟩, _⟩ :: members => value.parts ++ memberParts members

end

end Syntax

/-! ### What the scanner of YAML does not read -/

/-- Whether no character is written as two surrogates. -/
def HasNoSurrogates (pieces : List StringPiece) : Prop :=
  ∀ piece ∈ pieces, piece.isSurrogates = false

instance (pieces : List StringPiece) : Decidable (HasNoSurrogates pieces) :=
  inferInstanceAs (Decidable (∀ piece ∈ pieces, piece.isSurrogates = false))

/-- Whether the value is a number or a word. -/
def Syntax.isBare : Syntax → Bool
  | .null | .boolean _ | .number _ => true
  | .string _ | .array .. | .object .. => false

/-- Whether nothing but tabs stands between the colon and a number or a word. -/
def Member.HasTabGap (member : Member Syntax) : Prop :=
  member.afterColon.text ≠ [] ∧ member.afterColon.text.all (· == '\t') = true ∧
    member.value.isBare = true

instance (member : Member Syntax) : Decidable member.HasTabGap :=
  inferInstanceAs (Decidable (member.afterColon.text ≠ [] ∧
    member.afterColon.text.all (· == '\t') = true ∧ member.value.isBare = true))

namespace Syntax

/-- What YAML reads as JSON does: strings without surrogates, no gaps of tabs alone, and no
number that rounds to infinity. Of a container, the values in it are not looked at. -/
def Readable : Syntax → Prop
  | .null | .boolean _ | .array .. => True
  | .number numeral => numeral.isWhole = true ∨ numeral.double.isFinite = true
  | .string pieces => HasNoSurrogates pieces
  | .object _ members =>
    ∀ member ∈ members, HasNoSurrogates member.item.key ∧ ¬member.item.HasTabGap

instance : DecidablePred Readable
  | .null | .boolean _ | .array .. => isTrue trivial
  | .number numeral =>
    inferInstanceAs (Decidable (numeral.isWhole = true ∨ numeral.double.isFinite = true))
  | .string pieces => inferInstanceAs (Decidable (HasNoSurrogates pieces))
  | .object _ members => inferInstanceAs (Decidable (∀ member ∈ members,
      HasNoSurrogates member.item.key ∧ ¬member.item.HasTabGap))

/-- The keys of members, in their order. -/
def keys (members : List (Padded (Member Syntax))) : List String :=
  members.map fun member => stringMeaning member.item.key

/-- Whether no key stands twice in an object. Of a container, the values in it are not looked
at. -/
def DistinctKeys : Syntax → Prop
  | .object _ members => (keys members).Nodup
  | _ => True

instance : DecidablePred DistinctKeys
  | .null | .boolean _ | .number _ | .string _ | .array .. => isTrue trivial
  | .object _ members => inferInstanceAs (Decidable (keys members).Nodup)

/-! ### What a document says -/

mutual

/-- What a value says, as a node: the kind, the content and the order of its parts. The nodes
may be anywhere. -/
inductive Denotes : Syntax → Node → Prop
  | null (place : Place) : Denotes .null (.null place)
  | boolean (value : Bool) (place : Place) : Denotes (.boolean value) (.boolean value place)
  | long (numeral : Numeral) (k : Int64) (place : Place) (hw : numeral.isWhole = true)
      (hk : k.toInt = numeral.value) : Denotes (.number numeral) (.long k place)
  | large (numeral : Numeral) (place : Place) (hw : numeral.isWhole = true)
      (hk : Number.fitsInt64 numeral.value = false) :
      Denotes (.number numeral) (.string (.ofList numeral.spelling) place)
  | double (numeral : Numeral) (place : Place) (hw : numeral.isWhole = false) :
      Denotes (.number numeral) (.double numeral.double place)
  | string (pieces : List StringPiece) (place : Place) :
      Denotes (.string pieces) (.string (stringMeaning pieces) place)
  | array (inside : Layout) {elements : List (Padded Syntax)} {nodes : List Node} (place : Place)
      (h : ElementsDenote elements nodes) : Denotes (.array inside elements) (.array nodes place)
  | object (inside : Layout) {members : List (Padded (Member Syntax))}
      {entries : List (String × Node)} (place : Place) (h : MembersDenote members entries) :
      Denotes (.object inside members) (.map entries place)

inductive ElementsDenote : List (Padded Syntax) → List Node → Prop
  | nil : ElementsDenote [] []
  | cons {before element after elements node nodes} (h : Denotes element node)
      (hs : ElementsDenote elements nodes) :
      ElementsDenote (⟨before, element, after⟩ :: elements) (node :: nodes)

inductive MembersDenote : List (Padded (Member Syntax)) → List (String × Node) → Prop
  | nil : MembersDenote [] []
  | cons {before key beforeColon afterColon value after members node entries}
      (h : Denotes value node) (hs : MembersDenote members entries) :
      MembersDenote (⟨before, ⟨key, beforeColon, afterColon, value⟩, after⟩ :: members)
        ((stringMeaning key, node) :: entries)

end

end Syntax

/-- A document: a value with layout around it. -/
abbrev Document := Padded Syntax

def Document.text (document : Document) : String :=
  .ofList (document.before.text ++ (document.item.spelling ++ document.after.text))

end Json
end TypedConfig
