/-
  Ranges of code points.

  A property of characters is given by a table of ranges, both ends included,
  in ascending order.
-/

namespace StyledText.Unicode

/-- Whether a table of inclusive ranges holds the code point of `c`. -/
def inRanges (table : List (Nat × Nat)) (c : Char) : Bool :=
  table.any fun range => range.1 ≤ c.toNat && c.toNat ≤ range.2

theorem inRanges_iff {table : List (Nat × Nat)} {c : Char} :
    inRanges table c = true ↔ ∃ range ∈ table, range.1 ≤ c.toNat ∧ c.toNat ≤ range.2 := by
  simp [inRanges]

end StyledText.Unicode
