import Gridding.Numeric.Sum
/-!
# Numbers that weights are made of

Weights and measures are doubles in the running program. The rules of allocation use only the
operations of an ordered field and the functions below, so that they make sense for exact numbers
as well; there all sums are the sum of the list.
-/

namespace Gridding

class Tally (α : Type) where
  /-- The sum of a list, the same in every order. Exact numbers always have one. -/
  sum : List α → Except SumError α
  /-- The sum of all entries of a table. -/
  tableSum : List α → α
  ratio : Int → Nat → α
  isFinite : α → Bool

instance zeroFloat : Zero Float := ⟨0.0⟩
instance oneFloat : One Float := ⟨1.0⟩

instance : Tally Float where
  sum := exactSum
  tableSum xs := pairwiseSum xs.toArray
  ratio n d := floatOfInt n / floatOfInt d
  isFinite := Float.isFinite

end Gridding
