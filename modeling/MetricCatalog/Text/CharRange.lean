/-
# Sets of characters given by ranges

A character class of the standard is a table of closed ranges of code points.
This file holds the type of such tables and the membership test; the tables
themselves stand in the modules named for their property.
-/

namespace MetricCatalog.Text

/-- A set of characters, listed as closed ranges of code points. -/
structure CharRanges where
  /-- The ranges, each given by its first and its last code point. -/
  ranges : List (Nat × Nat)

namespace CharRanges

/-- Whether the character lies in one of the ranges. -/
def contains (table : CharRanges) (c : Char) : Bool :=
  table.ranges.any fun range => range.1 ≤ c.toNat && c.toNat ≤ range.2

theorem contains_iff (table : CharRanges) (c : Char) :
    table.contains c = true ↔
      ∃ range ∈ table.ranges, range.1 ≤ c.toNat ∧ c.toNat ≤ range.2 := by
  simp [contains]

end CharRanges

end MetricCatalog.Text
