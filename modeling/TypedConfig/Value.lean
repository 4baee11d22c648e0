/-
# Decoded values

Decoding turns nodes into values. The built-in decoders make the structural
values; record constructors and the application's own decoders make custom ones,
whose contents are of a type `α` that the application chooses.

Key definitions: `Identity`, `Value`, `Value.equals`, `Value.setOf`.
-/
import TypedConfig.Entries
import TypedConfig.Number.Double
import TypedConfig.Path

namespace TypedConfig

/-- What tells custom values apart: they have no equality of their own, so two are the
same only if they are one and the same object. -/
inductive Identity where
  /-- An object that the application made, under a label of its choice. -/
  | given (label : String)
  /-- An object made while decoding, at the place in the decoding where it was made. -/
  | born (site : List Nat)
deriving DecidableEq, Inhabited

/-- The result of decoding. -/
inductive Value (α : Type) where
  | null
  | boolean (value : Bool)
  | long (value : Int64)
  | double (value : Double)
  | string (value : String)
  | path (value : Path)
  /-- The constant of an enumeration that was matched. -/
  | enum (constant : String)
  | list (elements : List (Value α))
  /-- Distinct elements in the order of their first occurrence. -/
  | set (elements : List (Value α))
  | map (entries : List (String × Value α))
  /-- A record that has no constructor. -/
  | record (name : String) (fields : List (String × Value α))
  /-- An object of the application. -/
  | custom (identity : Identity) (content : α)
deriving Inhabited

namespace Value

variable {α : Type}

/-- Whether the value is null. -/
def isNull : Value α → Bool
  | .null => true
  | _ => false

/-- The name of the kind of value, for messages. -/
def typeName : Value α → String
  | .null => "Null"
  | .boolean _ => "Boolean"
  | .long _ => "Long"
  | .double _ => "Double"
  | .string _ => "String"
  | .path _ => "Path"
  | .enum _ => "Enum"
  | .list _ => "List"
  | .set _ => "Set"
  | .map _ => "Map"
  | .record .. => "Record"
  | .custom .. => "Custom"

/-! ### Equality

Sets are compared without regard to order: every element of the left one has to
equal, read from right to left, some element of the right one. Equality in the
two directions is therefore defined together, each by recursion on the first
value. -/

mutual

/-- Whether `x` equals `y`. Numbers are compared as numbers, paths by components, lists
in order, maps and records without regard to order, custom values by identity. -/
def equals : Value α → Value α → Bool
  | .null, .null => true
  | .boolean a, .boolean b => a == b
  | .long a, .long b => a == b
  | .double a, .double b => a.same b
  | .string a, .string b => a == b
  | .path a, .path b => a.same b
  | .enum a, .enum b => a == b
  | .list xs, .list ys => listEquals xs ys
  | .set xs, .set ys => xs.length == ys.length && eachEqualled xs ys
  | .map es, .map fs => es.length == fs.length && entriesEqual es fs
  | .record m es, .record n fs => m == n && es.length == fs.length && entriesEqual es fs
  | .custom i _, .custom j _ => i == j
  | _, _ => false

/-- Whether the lists are equal element by element. -/
def listEquals : List (Value α) → List (Value α) → Bool
  | [], [] => true
  | x :: xs, y :: ys => x.equals y && listEquals xs ys
  | _, _ => false

/-- Whether each of `xs` is equalled by some element of `ys`. -/
def eachEqualled : List (Value α) → List (Value α) → Bool
  | [], _ => true
  | x :: xs, ys => ys.any (fun y => equalledBy x y) && eachEqualled xs ys

/-- Whether each of the entries equals the one with the same key in `fs`. -/
def entriesEqual : List (String × Value α) → List (String × Value α) → Bool
  | [], _ => true
  | (key, x) :: es, fs =>
    (match fs.lookup key with
      | some y => x.equals y
      | none => false) && entriesEqual es fs

/-- Whether `y` equals `x`. -/
def equalledBy : Value α → Value α → Bool
  | .null, .null => true
  | .boolean a, .boolean b => b == a
  | .long a, .long b => b == a
  | .double a, .double b => b.same a
  | .string a, .string b => b == a
  | .path a, .path b => b.same a
  | .enum a, .enum b => b == a
  | .list xs, .list ys => listEqualledBy xs ys
  | .set xs, .set ys => ys.length == xs.length && ys.all (fun y => someEquals xs y)
  | .map es, .map fs => fs.length == es.length && fs.all (fun f => entryEqualledBy es f.1 f.2)
  | .record m es, .record n fs =>
    n == m && fs.length == es.length && fs.all (fun f => entryEqualledBy es f.1 f.2)
  | .custom i _, .custom j _ => j == i
  | _, _ => false

/-- Whether each of the second list equals the element of the first at its place. -/
def listEqualledBy : List (Value α) → List (Value α) → Bool
  | [], [] => true
  | x :: xs, y :: ys => equalledBy x y && listEqualledBy xs ys
  | _, _ => false

/-- Whether some element of `xs` equals `y`. -/
def someEquals : List (Value α) → Value α → Bool
  | [], _ => false
  | x :: xs, y => x.equals y || someEquals xs y

/-- Whether `y` equals the value under `key`. -/
def entryEqualledBy : List (String × Value α) → String → Value α → Bool
  | [], _, _ => false
  | (k, x) :: es, key, y => if key == k then equalledBy x y else entryEqualledBy es key y

end

/-! ### Sets -/

/-- The elements of `xs` that no element kept before them equals, after those kept
already. -/
def distinctAfter (kept : List (Value α)) : List (Value α) → List (Value α)
  | [] => kept
  | x :: xs => distinctAfter (if kept.any (·.equals x) then kept else kept ++ [x]) xs

/-- The set of the elements of a list: of equal ones the first is kept. -/
def setOf (xs : List (Value α)) : Value α := .set (distinctAfter [] xs)

end Value

/-- A type of the application: its name, and which contents are of it. -/
structure ContentType (α β : Type) where
  name : String
  cast : α → Option β

/-- The content of a custom value of the given type. -/
def Value.content? {α β : Type} (type : ContentType α β) : Value α → Option β
  | .custom _ content => type.cast content
  | _ => none

end TypedConfig
