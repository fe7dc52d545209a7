import Gridding.Numeric.Tally
import Gridding.Table.Amounts
import Mathlib

/-!
# Exact numbers

Numbers of an ordered field whose sums are those of the field. Rational numbers are an example.
-/

namespace Gridding

class ExactTally (α : Type) [Field α] [Tally α] : Prop where
  sum_eq (xs : List α) : Tally.sum xs = .ok xs.sum
  tableSum_eq (xs : List α) : Tally.tableSum xs = xs.sum
  ratio_eq (n : ℤ) (d : ℕ) : (Tally.ratio n d : α) = n / d

instance : Tally ℚ where
  sum xs := .ok xs.sum
  tableSum xs := xs.sum
  ratio n d := n / d
  isFinite _ := true

/-- Only integers are read. -/
instance : Amount ℚ where
  amount _ d := match d with
    | .integer n => n
    | _ => 0

instance : ExactTally ℚ where
  sum_eq _ := rfl
  tableSum_eq _ := rfl
  ratio_eq _ _ := rfl

end Gridding
