/-!
# Exact values of doubles

A finite double is `mantissa * 2 ^ exponent` with integers on both sides. `Binary.ofFloat?` reads
that form off the bits and `Binary.roundRatio` goes back: it gives the double nearest to a
quotient of integers, a tie going to the even neighbour. Everything that has to be rounded once
(decimal text, exact sums) is computed between the two.
-/

namespace Gridding

/-- The number `mantissa * 2 ^ exponent`. -/
structure Binary where
  mantissa : Int
  exponent : Int
  deriving DecidableEq, Repr

/-- How a quotient exactly between two integers is rounded. -/
inductive Tie where
  | toEven
  | awayFromZero
  deriving DecidableEq, Repr

/-- The integer nearest to `num / den`. -/
def roundDiv (num den : Nat) (tie : Tie) : Nat :=
  let q := num / den
  let r := num % den
  if 2 * r < den then q
  else if den < 2 * r then q + 1
  else match tie with
    | .awayFromZero => q + 1
    | .toEven => if q % 2 = 0 then q else q + 1

namespace Binary

def isNegative (x : Float) : Bool := x.toBits >>> 63 == 1

/-- The value of a finite double, whose sign bit is kept in the mantissa only when it is nonzero. -/
def ofFloat? (x : Float) : Option Binary :=
  let bits := x.toBits
  let e := ((bits >>> 52) &&& 0x7FF).toNat
  let f := (bits &&& 0xFFFFFFFFFFFFF).toNat
  if e = 0x7FF then none
  else
    let (m, q) : Nat × Int := if e = 0 then (f, -1074) else (Nat.pow 2 52 + f, (e : Int) - 1075)
    some ⟨if isNegative x then -(m : Int) else m, q⟩

/-- The value of a double, infinities and NaN counting as zero. -/
def ofFloat (x : Float) : Binary := (ofFloat? x).getD ⟨0, 0⟩

/-- The mantissa over the exponent `q`, which is at most the own exponent. -/
def scaledTo (b : Binary) (q : Int) : Int :=
  b.mantissa * Int.pow 2 (b.exponent - q).toNat

/-- The least exponent of doubles that are not zero, over which all of them are integers. -/
def commonExponent (xs : List Float) : Int :=
  (xs.map ofFloat).foldl (fun e b => if b.mantissa = 0 then e else min e b.exponent) 1024

/-- The integer that a double is over a common exponent. -/
def scaled (q : Int) (x : Float) : Int :=
  let b := ofFloat x
  if b.mantissa = 0 then 0 else b.scaledTo q

/-- Numerator and denominator. -/
def ratio (b : Binary) : Int × Nat :=
  (b.mantissa * Int.pow 2 b.exponent.toNat, Nat.pow 2 (-b.exponent).toNat)

/-- The double with mantissa `m < 2 ^ 53` over the exponent `q ≥ -1074`. -/
def assemble (m : Nat) (q : Int) : UInt64 :=
  if m < Nat.pow 2 52 then m.toUInt64
  else
    let e := q + 1075
    if e ≥ 0x7FF then 0x7FF0000000000000
    else (e.toNat.toUInt64 <<< 52) ||| (m - Nat.pow 2 52).toUInt64

/-- The exponent of the last of the 53 leading bits of a positive quotient. -/
def lastExponent (num den : Nat) : Int :=
  let q : Int := (num.log2 : Int) - (den.log2 : Int) - 52
  let fits (q : Int) : Bool := num * Nat.pow 2 (-q).toNat < Nat.pow 2 53 * (den * Nat.pow 2 q.toNat)
  if fits (q - 1) then q - 1 else if fits q then q else q + 1

/-- The double nearest to the positive quotient `num / den`, as bits. -/
def roundPositive (num den : Nat) : UInt64 :=
  let q := max (lastExponent num den) (-1074)
  let m := roundDiv (num * Nat.pow 2 (-q).toNat) (den * Nat.pow 2 q.toNat) .toEven
  if m = Nat.pow 2 53 then assemble (Nat.pow 2 52) (q + 1) else assemble m q

/-- The double nearest to `num / den`, ties to even. -/
def roundRatio (num : Int) (den : Nat) : Float :=
  if num = 0 then 0.0
  else
    let bits := roundPositive num.natAbs den
    Float.ofBits (if num < 0 then bits ||| 0x8000000000000000 else bits)

/-- The double nearest to an exact value. -/
def toFloat (b : Binary) : Float :=
  let (n, d) := b.ratio
  roundRatio n d

end Binary

/-- The double nearest to an integer of any size. -/
def floatOfInt (n : Int) : Float := Binary.roundRatio n 1

end Gridding
