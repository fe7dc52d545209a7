import Gridding.Numeric.Binary
/-!
# Length of a vector

`hypotenuse x y` is the square root of `x² + y²`, computed exactly and rounded once.
-/

namespace Gridding

/-- The square root of a natural number, found bit by bit from above: `root` collects the bits
and `bit` is the next one to try. -/
private def squareRootFrom (n : Nat) : Nat → Nat → Nat
  | 0, root => root
  | bit + 1, root =>
    let next := root + Nat.pow 2 bit
    squareRootFrom n bit (if next * next ≤ n then next else root)

/-- The greatest natural number whose square is at most `n`. -/
def squareRoot (n : Nat) : Nat := squareRootFrom n (n.log2 / 2 + 1) 0

def hypotenuse (x y : Float) : Float :=
  match Binary.ofFloat? x, Binary.ofFloat? y with
  | some a, some b =>
    let q := min a.exponent b.exponent
    let sum := (Int.pow (a.scaledTo q) 2 + Int.pow (b.scaledTo q) 2).natAbs
    -- the doubled root is made odd where it is not exact, so that no tie arises by truncation
    let widened := sum * Nat.pow 2 128
    let root := squareRoot widened
    let sticky := 2 * root + (if root * root = widened then 0 else 1)
    Binary.toFloat ⟨sticky, q - 65⟩
  | _, _ => if x.isInf || y.isInf then 1.0 / 0.0 else 0.0 / 0.0

end Gridding
