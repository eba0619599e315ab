/-!
# Sets of code points

A property of characters that a standard gives by enumeration is kept as a list of closed ranges
of code points in increasing order.
-/

namespace CodeAtlas
namespace Text

/-- Closed ranges of code points, each given by its first and last member. -/
abbrev Ranges := List (Nat × Nat)

/-- Whether the code point of a character lies in one of the ranges. -/
def Ranges.contains (ranges : Ranges) (c : Char) : Bool :=
  ranges.any fun range => range.1 ≤ c.toNat && c.toNat ≤ range.2

end Text
end CodeAtlas
