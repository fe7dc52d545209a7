/-!
# Ranges of code points

A property of characters is given by the sorted, disjoint ranges of code points that have it.
-/

namespace Gridding.Text

/-- The last range of the part from `low` to `low + size` that starts at or before `n`, by
halving. -/
private def rangeAtMost (ranges : Array (Nat × Nat)) (n : Nat) : Nat → Nat → Nat → Nat
  | 0, low, _ => low
  | fuel + 1, low, size =>
    if size ≤ 1 then low
    else
      let half := size / 2
      if (ranges.getD (low + half) (0, 0)).1 ≤ n then
        rangeAtMost ranges n fuel (low + half) (size - half)
      else rangeAtMost ranges n fuel low half

/-- Does one of the sorted ranges hold `n`? -/
def inRanges (ranges : Array (Nat × Nat)) (n : Nat) : Bool :=
  match ranges[rangeAtMost ranges n 32 0 ranges.size]? with
  | some (low, high) => low ≤ n && n ≤ high
  | none => false

end Gridding.Text
