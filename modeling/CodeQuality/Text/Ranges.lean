/-!
# Sets of characters as ranges

A property of characters is given as a list of closed ranges of their numbers.
-/

namespace CodeQuality
namespace Text

/-- Does the number of `c` lie in one of `ranges`? -/
def inRanges (ranges : List (Nat × Nat)) (c : Char) : Bool :=
  ranges.any fun r => r.1 ≤ c.toNat && c.toNat ≤ r.2

end Text
end CodeQuality
