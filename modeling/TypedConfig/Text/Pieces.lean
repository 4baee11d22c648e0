/-
# Text between separators

Key definitions: `pieces`.
-/

namespace TypedConfig
namespace Text

/-- The pieces of `cs` between occurrences of `separator`; there is always at least one. -/
def pieces (separator : Char) : List Char → List (List Char)
  | [] => [[]]
  | c :: cs =>
    if c = separator then [] :: pieces separator cs
    else
      match pieces separator cs with
      | piece :: rest => (c :: piece) :: rest
      | [] => [[c]]

end Text
end TypedConfig
