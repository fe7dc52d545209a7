import Gridding.Allocation.Dense
import Gridding.Grid.Basic
import Gridding.Numeric.Decimal
import Gridding.Sphere.Footprint
/-!
# Maps of an allocation

A figure shows the values of a table on the footprints of a grid: its title, the limits and five
ticks of each axis with their labels, the values drawn and the range of the colour scale. Cells with
the value zero may be left out.
-/

namespace Gridding

/-- A table of any number of axes. -/
structure NumberArray where
  shape : List Nat
  values : List Float
  deriving Inhabited

inductive FigureError where
  | shape (given : List Nat) (ny nx : Int)
  | outOfRange
  | noExtent
  deriving DecidableEq, Repr

private def shapeText : List Nat → String
  | [n] => "(" ++ toString n ++ ",)"
  | ns => "(" ++ ", ".intercalate (ns.map toString) ++ ")"

/-- The wording of an error that has one. -/
def FigureError.message? : FigureError → Option String
  | shape given ny nx =>
    some ("array shape " ++ shapeText given ++ " does not match grid " ++ toString ny ++ "x" ++
      toString nx)
  | outOfRange => none
  | noExtent => none

structure Figure where
  title : String
  xTicks : List Float
  yTicks : List Float
  xLabels : List String
  yLabels : List String
  xLimits : Float × Float
  yLimits : Float × Float
  /-- The values of the drawn parts: areas, lines and points apart. -/
  drawn : List (List Float)
  /-- The greatest value of the colour scale, which starts at zero. -/
  scaleMax : Float
  deriving Repr

namespace Figure

def degreeLabel (negative positive : String) (v : Float) : String :=
  Decimal.general 6 v.abs ++ "°" ++ (if v < 0.0 then negative else positive)

def lonLabel (v : Float) : String := degreeLabel "W" "E" v
def latLabel (v : Float) : String := degreeLabel "S" "N" v

/-- Five ticks from one end to the other. -/
def ticks (low high : Float) : List Float :=
  let step := (high - low) / 4.0
  [0.0 * step + low, 1.0 * step + low, 2.0 * step + low, 3.0 * step + low, high]

/-- The integer nearest to `x` as a double, a half going to the even neighbour. -/
private def rint (x : Float) : Float :=
  match Binary.ofFloat? x with
  | some b =>
    let (n, d) := b.ratio
    let m := floatOfInt (roundDiv n.natAbs d .toEven : Nat)
    if x < 0.0 then -m else m
  | none => x

def toHundredths (x : Float) : Float := rint (x * 100.0) / 100.0

private def valueAt (a : NumberArray) (nx ny : Int) (c : Cell Footprint Float) : Option Float :=
  match wrapIndex? ny c.row, wrapIndex? nx c.col with
  | some row, some col => a.values[row * nx.toNat + col]?
  | _, _ => none

/-- The values of the drawn parts of one dimension, one for each part. -/
private def drawnOf (dim : Int) (cells : List (Footprint × Float)) : List Float :=
  (cells.filter fun c => c.1.dimension = dim && !c.2.isNaN).flatMap fun c =>
    List.replicate ((c.1.geometry.parts.filter fun p => !p.isEmpty).length) c.2

def draw (grid : Grid Footprint Float) (array : NumberArray) (title : Option String)
    (zeroAsBlank : Bool) : Except FigureError Figure :=
  if array.shape.map Int.ofNat ≠ [grid.ny, grid.nx] then
    .error (.shape array.shape grid.ny grid.nx)
  else
    match grid.cells.mapM (valueAt array grid.nx grid.ny), grid.extent.bounds? with
    | none, _ => .error .outOfRange
    | some _, none => .error .noExtent
    | some values, some b =>
      let cells := (grid.cells.map (·.footprint)).zip values
      let shown := if zeroAsBlank then cells.filter fun c => c.2 != 0.0 else cells
      let greatest := values.foldl (fun m v => if v > m || v.isNaN then v else m) 0.0
      let xTicks := ticks b.minX b.maxX
      let yTicks := ticks b.minY b.maxY
      let given := (title.filter fun t => !t.isEmpty).getD (grid.name ++ " surrogate")
      .ok ⟨given, xTicks, yTicks, xTicks.map fun v => lonLabel (toHundredths v),
        yTicks.map fun v => latLabel (toHundredths v), (b.minX, b.maxX), (b.minY, b.maxY),
        ([2, 1, 0].map fun d => drawnOf d shown).filter fun vs => !vs.isEmpty,
        if greatest > 0.0 then greatest else 1.0⟩

end Figure

end Gridding
