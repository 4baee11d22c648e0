/-
# The value tree

A source is parsed into a tree of nodes, which decoders turn into values. Every
node but one remembers its position and its path from the root; the one is
`undefined`, which stands for "nothing is here" and is not the same as an
explicit null.

Key definitions: `Place`, `Node`, `Node.atKey`, `Node.atIndex`, `Node.text?`.
-/
import TypedConfig.Number.Shortest
import TypedConfig.Position

namespace TypedConfig

/-- The path of the root of every tree. -/
def rootPath : String := "<root>"

/-- The path of the child stored under `key`. -/
def childPath (parent key : String) : String := parent ++ "." ++ key

/-- The path of the element at `index`. -/
def elementPath (parent : String) (index : Nat) : String :=
  parent ++ "[" ++ natText index ++ "]"

/-- Where a node is: its position in the source and its path from the root. -/
structure Place where
  position : Position
  path : String
deriving DecidableEq, Inhabited

/-- A node of the parsed tree. -/
inductive Node where
  | string (value : String) (place : Place)
  | long (value : Int64) (place : Place)
  | double (value : Double) (place : Place)
  | boolean (value : Bool) (place : Place)
  | null (place : Place)
  | undefined
  | map (entries : List (String × Node)) (place : Place)
  | array (elements : List Node) (place : Place)
deriving Inhabited

namespace Node

/-- Where the node is, unless it is undefined. -/
def place? : Node → Option Place
  | .string _ place | .long _ place | .double _ place | .boolean _ place | .null place
  | .map _ place | .array _ place => some place
  | .undefined => none

/-- The position of the node; an undefined node has none. -/
def position (node : Node) : Position :=
  match node.place? with
  | some place => place.position
  | none => .unknown

/-- The path of the node; an undefined node has none. -/
def path? (node : Node) : Option String := node.place?.map (·.path)

/-- The path of the node for a message: that of the root stands in for a missing one. -/
def pathOrRoot (node : Node) : String := node.path?.getD rootPath

/-- Whether there is a node at all. -/
def isDefined : Node → Bool
  | .undefined => false
  | _ => true

/-- Whether the node is an explicit null. -/
def isNull : Node → Bool
  | .null _ => true
  | _ => false

/-- The name of the kind of node, for messages. -/
def typeName : Node → String
  | .string .. => "String"
  | .long .. => "Long"
  | .double .. => "Double"
  | .boolean .. => "Boolean"
  | .null _ => "Null"
  | .undefined => "Undefined"
  | .map .. => "Map"
  | .array .. => "Array"

/-- The child stored under `key`; undefined if there is none or the node is no map. -/
def atKey (node : Node) (key : String) : Node :=
  match node with
  | .map entries _ => (entries.lookup key).getD .undefined
  | _ => .undefined

/-- The element at `index`; undefined if there is none or the node is no array. -/
def atIndex (node : Node) (index : Nat) : Node :=
  match node with
  | .array elements _ => elements[index]?.getD .undefined
  | _ => .undefined

/-- How many children the node has. -/
def size : Node → Nat
  | .map entries _ => entries.length
  | .array elements _ => elements.length
  | _ => 0

/-- The text of a scalar; null, undefined and the containers have none. -/
def text? : Node → Option String
  | .string value _ => some value
  | .long value _ => some (int64Text value)
  | .double value _ => some (doubleText value)
  | .boolean value _ => some (if value then "true" else "false")
  | _ => none

/-- The text of the node for a message: the name of its kind stands in for a missing
one. -/
def textOrType (node : Node) : String := node.text?.getD node.typeName

mutual

/-- Equality of trees, positions and paths included: doubles are compared as numbers,
and the entries of maps without regard to their order. -/
def equals : Node → Node → Bool
  | .string a p, .string b q => a == b && p == q
  | .long a p, .long b q => a == b && p == q
  | .double a p, .double b q => a.same b && p == q
  | .boolean a p, .boolean b q => a == b && p == q
  | .null p, .null q => p == q
  | .undefined, .undefined => true
  | .map es p, .map fs q => es.length == fs.length && entriesWithin es fs && p == q
  | .array as p, .array bs q => allEqual as bs && p == q
  | _, _ => false

/-- Whether two lists of trees are equal element by element. -/
def allEqual : List Node → List Node → Bool
  | [], [] => true
  | a :: as, b :: bs => a.equals b && allEqual as bs
  | _, _ => false

/-- Whether every entry of the first list is found, with an equal tree, in the second. -/
def entriesWithin : List (String × Node) → List (String × Node) → Bool
  | [], _ => true
  | (key, a) :: es, fs =>
    (match fs.lookup key with
      | some b => a.equals b
      | none => false) && entriesWithin es fs

end

end Node
end TypedConfig
