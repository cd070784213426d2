/-!
# Ranges of code points

A Unicode property is given by the ranges of code points that have it, both ends
included.
-/

namespace IgnoreRules.Text

/-- Ranges of code points, each given by its first and its last member. -/
abbrev CodeRanges := List (Nat × Nat)

def CodeRanges.contains (ranges : CodeRanges) (c : Char) : Bool :=
  ranges.any fun range => range.1 ≤ c.toNat && c.toNat ≤ range.2

end IgnoreRules.Text
