/-!
# Character classes given by ranges

A class of characters is a list of inclusive position ranges. Membership is a
plain search, so a fact about one character is a closed computation.
-/
namespace ScreenAtlas.Text

/-- The character's position lies in one of the ranges. -/
def inRanges (ranges : List (Nat × Nat)) (c : Char) : Bool :=
  ranges.any fun range => range.1 ≤ c.toNat && c.toNat ≤ range.2

end ScreenAtlas.Text
