import Gridding.Numeric.Binary
/-!
# The integer part of a double

Truncation toward zero, which infinities and NaN do not have.
-/

namespace Gridding

/-- Why something is not the number that is asked for. -/
inductive NumberError where
  | notANumber
  | infinite
  deriving DecidableEq, Repr

namespace Binary

def truncate (b : Binary) : Int :=
  let (n, d) := b.ratio
  n.tdiv d

/-- Is the value a whole number? -/
def isWhole (b : Binary) : Bool :=
  let (n, d) := b.ratio
  n % (d : Int) = 0

end Binary

def integerPart? (x : Float) : Except NumberError Int :=
  match Binary.ofFloat? x with
  | some b => .ok b.truncate
  | none => .error (if x.isNaN then .notANumber else .infinite)

end Gridding
