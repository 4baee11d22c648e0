/-
# JSON values

The form in which failures and positions are handed to other programs.

Key definitions: `Json`, `Json.field?`.
-/

namespace TypedConfig

/-- A JSON value. The number `mantissa · 10 ^ (-places)` was written with `places`
digits after its point; without a point it is whole. -/
inductive Json where
  | null
  | boolean (value : Bool)
  | number (mantissa : Int) (places : Nat)
  | string (value : String)
  | array (elements : List Json)
  | object (members : List (String × Json))
deriving Inhabited

namespace Json

/-- A whole number that is not negative. -/
def natural (n : Nat) : Json := .number n 0

/-- The text of a string value. -/
def string? : Json → Option String
  | .string s => some s
  | _ => none

/-- The value of a whole number that fits an unsigned word of 64 bits. -/
def word? : Json → Option Nat
  | .number (.ofNat n) 0 => if n < UInt64.size then some n else none
  | _ => none

/-- The member called `name` of an object. -/
def field? (name : String) : Json → Option Json
  | .object members => members.lookup name
  | _ => none

end Json
end TypedConfig
