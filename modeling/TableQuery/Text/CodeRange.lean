/-! # Code point ranges

A character class is given by the code point ranges that it fills.
-/
namespace TableQuery.Text

/-- The first and the last code point of a range, both inside. -/
abbrev CodeRange := Nat × Nat

def CodeRange.contains (r : CodeRange) (n : Nat) : Bool :=
  r.1 ≤ n && n ≤ r.2

def inRanges (ranges : List CodeRange) (n : Nat) : Bool :=
  ranges.any (·.contains n)

theorem inRanges_iff {ranges : List CodeRange} {n : Nat} :
    inRanges ranges n = true ↔ ∃ r ∈ ranges, r.1 ≤ n ∧ n ≤ r.2 := by
  simp [inRanges, CodeRange.contains]

end TableQuery.Text
