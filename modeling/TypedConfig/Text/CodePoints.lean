/-
# Sets of code points

Key definitions: `inRanges`.
-/

namespace TypedConfig
namespace Text

/-- Whether the code point of `c` lies in one of the closed ranges. -/
def inRanges (ranges : List (Nat × Nat)) (c : Char) : Bool :=
  ranges.any fun r => r.1 ≤ c.toNat && c.toNat ≤ r.2

end Text
end TypedConfig
