/-
# Reading values as application types

A record constructor reads its arguments as the types it needs. A type that can
be read is described by a `Target`; reading a value as it gives an element of the
target's carrier, or says what was found instead.

Key definitions: `Target`, `Target.Carrier`, `Value.extract`.
-/
import TypedConfig.Number.Integer
import TypedConfig.Value

namespace TypedConfig

/-- The types that a value can be read as. -/
inductive Target where
  /-- The value itself. -/
  | value
  | text
  | long
  | int
  | double
  | boolean
  | path
  /-- The inner type, or nothing for a null. -/
  | optional (inner : Target)
  | list (element : Target)
  /-- Named values in order. -/
  | entries (inner : Target)
  /-- Named values listed by name. -/
  | table (inner : Target)
deriving DecidableEq, Inhabited

/-- What is got by reading a value as the target. -/
def Target.Carrier (α : Type) : Target → Type
  | .value => Value α
  | .text => String
  | .long => Int64
  | .int => Int32
  | .double => Double
  | .boolean => Bool
  | .path => Path
  | .optional inner => Option (inner.Carrier α)
  | .list element => List (element.Carrier α)
  | .entries inner => Entries (inner.Carrier α)
  | .table inner => Entries (inner.Carrier α)

/-- Why a value could not be read as a target. -/
inductive ExtractError where
  | typeMismatch (expected actual : String)
  /-- A whole number does not fit 32 bits. -/
  | outOfRange (value : Int64)
deriving DecidableEq

/-- What went wrong, in one line. -/
def ExtractError.message : ExtractError → String
  | .typeMismatch expected actual => "expected " ++ expected ++ ", got " ++ actual
  | .outOfRange value => int64Text value ++ " is out of range for i32"

/-- Named values listed by name. -/
def Entries.sorted {β : Type} (entries : Entries β) : Entries β :=
  entries.mergeSort fun a b => decide (¬ b.1 < a.1)

namespace Value

variable {α : Type}

/-- Reads the values of entries one after another, keeping the names. -/
def extractEntries {β : Type} (read : Value α → Except ExtractError β) :
    List (String × Value α) → Except ExtractError (Entries β)
  | [] => .ok []
  | (key, value) :: rest => do
    let b ← read value
    let bs ← extractEntries read rest
    return (key, b) :: bs

/-- Reads elements one after another. -/
def extractElements {β : Type} (read : Value α → Except ExtractError β) :
    List (Value α) → Except ExtractError (List β)
  | [] => .ok []
  | value :: rest => do
    let b ← read value
    let bs ← extractElements read rest
    return b :: bs

/-- Reads a value as the target. A whole number can be read as a double, the constant
of an enumeration as text, a text as a path, and a record as its fields. -/
def extract : (target : Target) → Value α → Except ExtractError (target.Carrier α)
  | .value, value => .ok value
  | .text, .string s => .ok s
  | .text, .enum c => .ok c
  | .text, value => .error (.typeMismatch "String" value.typeName)
  | .long, .long n => .ok n
  | .long, value => .error (.typeMismatch "Long" value.typeName)
  | .int, .long n =>
    if Number.fitsInt32 n.toInt then .ok (Int32.ofInt n.toInt) else .error (.outOfRange n)
  | .int, value => .error (.typeMismatch "Int" value.typeName)
  | .double, .double x => .ok x
  | .double, .long n => .ok (.ofInt64 n)
  | .double, value => .error (.typeMismatch "Double" value.typeName)
  | .boolean, .boolean b => .ok b
  | .boolean, value => .error (.typeMismatch "Boolean" value.typeName)
  | .path, .path p => .ok p
  | .path, .string s => .ok ⟨s⟩
  | .path, value => .error (.typeMismatch "Path" value.typeName)
  | .optional _, .null => .ok none
  | .optional inner, value => (extract inner value).map some
  | .list element, .list xs => extractElements (extract element) xs
  | .list element, .set xs => extractElements (extract element) xs
  | .list _, value => .error (.typeMismatch "List" value.typeName)
  | .entries inner, .map es => extractEntries (extract inner) es
  | .entries inner, .record _ es => extractEntries (extract inner) es
  | .entries _, value => .error (.typeMismatch "Map" value.typeName)
  | .table inner, .map es => (extractEntries (extract inner) es).map Entries.sorted
  | .table inner, .record _ es => (extractEntries (extract inner) es).map Entries.sorted
  | .table _, value => .error (.typeMismatch "Map" value.typeName)

end Value
end TypedConfig
