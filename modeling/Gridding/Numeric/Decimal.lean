import Gridding.Numeric.Binary
/-!
# Decimal text of doubles

Three layouts of a double: with a set number of places (`fixed`), in scientific notation with a
set number of digits (`scientific`), and with a set number of significant digits and no trailing
zeros (`general`). All three round the exact binary value once, a tie going to even. `shortest`
writes the fewest digits that read back to the same double.
-/

namespace Gridding.Decimal

def digitsOf (n : Nat) : String := String.ofList (Nat.toDigits 10 n)

def padLeft (width : Nat) (s : String) : String :=
  String.ofList (List.replicate (width - s.length) '0') ++ s

def nonFinite (x : Float) : String :=
  if x.isNaN then "nan" else if x < 0 then "-inf" else "inf"

/-- Digits with the point `places` from the right. -/
def withPoint (digits : Nat) (places : Nat) : String :=
  let s := padLeft (places + 1) (digitsOf digits)
  if places = 0 then s
  else
    let whole := s.length - places
    String.ofList (s.toList.take whole) ++ "." ++ String.ofList (s.toList.drop whole)

/-- The digits of `|x|` rounded to `places` places, as one integer. -/
def fixedDigits (places : Nat) (b : Binary) : Nat :=
  let (n, d) := b.ratio
  roundDiv (n.natAbs * Nat.pow 10 places) d .toEven

/-- Writes `x` with `places` places; `keepSign` says whether a rounded zero keeps its sign. -/
def fixed (places : Nat) (x : Float) (keepSign : Bool) : String :=
  match Binary.ofFloat? x with
  | none => nonFinite x
  | some b =>
    let digits := fixedDigits places b
    let sign := if Binary.isNegative x && (keepSign || digits != 0) then "-" else ""
    sign ++ withPoint digits places

/-- The exponent `k` with `10 ^ k ≤ num / den < 10 ^ (k + 1)`, for a positive quotient. -/
def leadingExponent (num den : Nat) : Int :=
  let reaches (k : Int) : Bool := den * Nat.pow 10 k.toNat ≤ num * Nat.pow 10 (-k).toNat
  -- the binary logarithm puts the answer within two of this guess
  let guess : Int := ((num.log2 : Int) - (den.log2 : Int)) * 1233 / 4096
  ([2, 1, 0, -1, -2].map (guess + ·)).find? reaches |>.getD (guess - 3)

/-- The `count` leading digits of a positive quotient, rounded, and the exponent of the first. -/
def leadingDigits (count : Nat) (num den : Nat) : Nat × Int :=
  let k := leadingExponent num den
  let shift : Int := (count : Int) - 1 - k
  let digits := roundDiv (num * Nat.pow 10 shift.toNat) (den * Nat.pow 10 (-shift).toNat) .toEven
  if digits = Nat.pow 10 count then (Nat.pow 10 (count - 1), k + 1) else (digits, k)

/-- An exponent with its sign and at least two digits. -/
def exponentText (k : Int) : String :=
  (if k < 0 then "-" else "+") ++ padLeft 2 (digitsOf k.natAbs)

/-- Writes `x` with one digit before the point and `places` after it, then the exponent. -/
def scientific (places : Nat) (x : Float) (keepSign : Bool) : String :=
  match Binary.ofFloat? x with
  | none => nonFinite x
  | some b =>
    let sign := if Binary.isNegative x && (keepSign || b.mantissa != 0) then "-" else ""
    let (n, d) := b.ratio
    let (digits, k) := if n = 0 then (0, 0) else leadingDigits (places + 1) n.natAbs d
    sign ++ withPoint digits places ++ "e" ++ exponentText k

/-- Drops trailing zeros of the digits after the point. -/
def stripZeros (digits : List Char) : List Char :=
  (digits.reverse.dropWhile (· == '0')).reverse

/-- Lays digits out around the point: positionally for `-4 ≤ k < limit`, else with an exponent.
`wholeMark` is what follows a number without decimals. -/
def layout (digits : List Char) (k : Int) (limit : Int) (wholeMark : String) : String :=
  let ds := stripZeros digits
  if -4 ≤ k && k < limit then
    if k < 0 then
      "0." ++ String.ofList (List.replicate (-k - 1).toNat '0' ++ ds)
    else
      let whole := ds.take (k.toNat + 1)
      let pad := List.replicate (k.toNat + 1 - whole.length) '0'
      let rest := ds.drop (k.toNat + 1)
      let places := if rest.isEmpty then wholeMark else "." ++ String.ofList rest
      String.ofList (whole ++ pad) ++ places
  else
    let rest := ds.drop 1
    String.ofList (ds.take 1) ++ (if rest.isEmpty then "" else "." ++ String.ofList rest) ++
      "e" ++ exponentText k

/-- Writes `x` with `digits` significant digits, without trailing zeros, positionally where the
exponent of the first digit is at least `-4` and below `digits`. -/
def general (digits : Nat) (x : Float) : String :=
  match Binary.ofFloat? x with
  | none => nonFinite x
  | some b =>
    let sign := if Binary.isNegative x then "-" else ""
    if b.mantissa = 0 then sign ++ "0"
    else
      let (n, d) := b.ratio
      let (ds, k) := leadingDigits digits n.natAbs d
      sign ++ layout (Nat.toDigits 10 ds) k digits ""

/-- A binary format: the number of mantissa bits and the exponent of the last bit of its smallest
numbers. -/
structure FloatFormat where
  bits : Nat
  least : Int

def doubleFormat : FloatFormat := ⟨53, -1074⟩
def singleFormat : FloatFormat := ⟨24, -149⟩

/-- Does `digits * 10 ^ exp` lie among the reals that round to the positive value `b`, whose
mantissa has all its bits unless the exponent is the least one? -/
def readsBack (f : FloatFormat) (b : Binary) (digits : Nat) (exp : Int) : Bool :=
  let m := b.mantissa.natAbs
  -- below a power of two the gap to the next number is half as wide
  let narrow := m = Nat.pow 2 (f.bits - 1) && b.exponent > f.least
  let low := if narrow then 4 * m - 1 else 4 * m - 2
  let high := 4 * m + 2
  let closed := m % 2 = 0
  let q := b.exponent - 2
  let value := digits * Nat.pow 10 exp.toNat * Nat.pow 2 (-q).toNat
  let unit := Nat.pow 2 q.toNat * Nat.pow 10 (-exp).toNat
  if closed then low * unit ≤ value && value ≤ high * unit
  else low * unit < value && value < high * unit

/-- The digits of the multiple of `10 ^ exp` next to the positive value `b` that reads back to it. -/
def digitsAt? (f : FloatFormat) (b : Binary) (exp : Int) : Option Nat :=
  let (n, d) := b.ratio
  let scaled := n.natAbs * Nat.pow 10 (-exp).toNat
  let unit := d * Nat.pow 10 exp.toNat
  let below := scaled / unit
  let hit (c : Nat) : Bool := readsBack f b c exp
  if hit below && hit (below + 1) then
    -- of two hits the nearer, a tie going to the even digit
    some (roundDiv scaled unit .toEven)
  else if hit below then some below
  else if hit (below + 1) then some (below + 1)
  else none

/-- The fewest digits that read back to the positive value `b`, with the exponent of the first. -/
def shortestDigits (f : FloatFormat) (b : Binary) : Nat × Int :=
  let (n, d) := b.ratio
  let k := leadingExponent n.natAbs d
  let hitAt (count : Nat) : Option (Nat × Int) :=
    let exp : Int := k + 1 - count
    (digitsAt? f b exp).map (·, exp)
  match (List.range 17).findSome? (fun i => hitAt (i + 1)) with
  | some (digits, exp) => (digits, (Nat.toDigits 10 digits).length - 1 + exp)
  | none => leadingDigits 17 n.natAbs d

/-- Writes a value with the fewest digits that read back to it, positionally below `10 ^ 16`; a
whole number keeps a decimal. -/
def shortestText (f : FloatFormat) (negative : Bool) (b : Binary) : String :=
  let sign := if negative then "-" else ""
  if b.mantissa = 0 then sign ++ "0.0"
  else
    let (ds, k) := shortestDigits f b
    sign ++ layout (Nat.toDigits 10 ds) k 16 ".0"

def shortest (x : Float) : String :=
  match Binary.ofFloat? x with
  | none => nonFinite x
  | some b => shortestText doubleFormat (Binary.isNegative x) b

/-- The single precision number nearest to `x`, if it is finite, as its exact value. -/
def singleValue? (x : Float) : Option Binary :=
  let bits := x.toFloat32.toBits
  let e := ((bits >>> 23) &&& 0xFF).toNat
  let f := (bits &&& 0x7FFFFF).toNat
  if e = 0xFF then none
  else
    let (m, q) : Nat × Int := if e = 0 then (f, -149) else (Nat.pow 2 23 + f, (e : Int) - 150)
    some ⟨if Binary.isNegative x then -(m : Int) else m, q⟩

/-- The shortest text of a number kept in single precision. -/
def shortestSingle (x : Float) : String :=
  match singleValue? x with
  | none => nonFinite x
  | some b => shortestText singleFormat (Binary.isNegative x) b

end Gridding.Decimal
