import Gridding.Numeric.Binary
/-!
# Sums of doubles

`exactSum` is the exact sum of its terms, rounded once, and so does not depend on their order as
long as it stays in the range of doubles.
`pairwiseSum` adds blocks of up to 128 terms in eight interleaved lanes and halves longer lists.
-/

namespace Gridding

/-- The exact sum of finite doubles as one binary value. -/
def binarySum (terms : List Binary) : Binary :=
  let q := terms.foldl (fun q b => min q b.exponent) 0
  ⟨(terms.map (·.scaledTo q)).foldl (· + ·) 0, q⟩

/-- Why a list of doubles has no sum. -/
inductive SumError where
  /-- Both infinities are among the terms. -/
  | oppositeInfinities
  /-- The sum of the first terms is beyond the range of doubles. -/
  | overflow
  deriving DecidableEq, Repr

/-- Does a value round to an infinity? -/
private def isBeyondRange (b : Binary) : Bool :=
  let limit : Binary := ⟨Int.pow 2 54 - 1, 970⟩
  let q := min b.exponent limit.exponent
  2 * (b.scaledTo q).natAbs ≥ (limit.scaledTo q).natAbs

/-- Does the sum of the first terms ever leave the range of doubles? Infinities and NaN start the
sum anew. -/
private def overflows (terms : List Float) : Bool :=
  let q := terms.foldl (fun q x => min q (Binary.ofFloat x).exponent) 0
  (terms.foldl (fun (acc : Int × Bool) x =>
    match Binary.ofFloat? x with
    | some b =>
      let sum := acc.1 + b.scaledTo q
      (sum, acc.2 || isBeyondRange ⟨sum, q⟩)
    | none => (0, acc.2)) (0, false)).2

/-- The sum of the terms, rounded once. A NaN or else an infinity among them is the sum. -/
def exactSum (terms : List Float) : Except SumError Float :=
  if terms.any (fun x => x.abs > 1e300) && overflows terms then .error .overflow
  else
    let special := terms.filter fun x => !x.isFinite
    let infinities := special.filter (·.isInf)
    if special.isEmpty then .ok (binarySum (terms.map Binary.ofFloat)).toFloat
    else if infinities.any (· < 0.0) && infinities.any (· > 0.0) then .error .oppositeInfinities
    else .ok (special.foldl (· + ·) 0.0)

/-- Adds `terms` in eight lanes, lane `i` taking every eighth term from the `i`-th on, and then
the remaining ones in order. -/
private def laneSum (terms : Array Float) (start count : Nat) : Float :=
  let at' (i : Nat) : Float := terms.getD (start + i) 0.0
  if count < 8 then
    (List.range count).foldl (fun acc i => acc + at' i) (-0.0)
  else
    let blocks := count / 8
    let lane (j : Nat) : Float :=
      (List.range (blocks - 1)).foldl (fun acc b => acc + at' (8 * (b + 1) + j)) (at' j)
    let head := ((lane 0 + lane 1) + (lane 2 + lane 3)) + ((lane 4 + lane 5) + (lane 6 + lane 7))
    (List.range (count - 8 * blocks)).foldl (fun acc i => acc + at' (8 * blocks + i)) head

/-- Halves a long run at a multiple of eight. The fuel bounds the number of halvings. -/
private def pairwise (terms : Array Float) : Nat → Nat → Nat → Float
  | 0, start, count => laneSum terms start count
  | fuel + 1, start, count =>
    if count ≤ 128 then laneSum terms start count
    else
      let half := count / 2 - (count / 2) % 8
      pairwise terms fuel start half + pairwise terms fuel (start + half) (count - half)

/-- The sum of the terms by blocks of 128. -/
def pairwiseSum (terms : Array Float) : Float :=
  if terms.isEmpty then 0.0 else pairwise terms 64 0 terms.size + 0.0

end Gridding
