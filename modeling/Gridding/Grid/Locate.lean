import Gridding.Grid.Basic
/-!
# Where a footprint falls on a grid

`locate` lists the cells a footprint overlaps and the share of the footprint in each, by area,
length or number of points. A piece of a line or a point on a shared edge is split among the cells
that it touches. A footprint without measure is split evenly among the cells that it meets.
`covers` tells whether almost all of a footprint lies inside the extent.
-/

namespace Gridding

structure Placement (α : Type) where
  cells : List (Int × Int)
  fractions : List α
  inGrid : Bool
  covered : Bool
  deriving Repr

/-- The share of a footprint that has to lie inside the grid for it to count as covered. -/
def coveredShare {α : Type} [Tally α] : α := Tally.ratio 9999 10000

namespace Grid

variable {ρ α ε : Type} [Region ρ α ε] [Zero α] [One α] [Mul α] [Div α] [LT α] [LE α]
  [DecidableLT α] [DecidableLE α] [Tally α]

def nowhere : Placement α := ⟨[], [], false, false⟩

def placement (hits : List (Cell ρ α × α)) (fractions : List α) :
    Except (Fault ε) (Placement α) := do
  let share ← Fault.add fractions
  return ⟨hits.map (·.1.place), fractions, true, decide (coveredShare < share)⟩

def inOrder (hits : List (Cell ρ α × α)) : List (Cell ρ α × α) :=
  hits.mergeSort fun a b => a.1.precedes b.1

/-- The cells that contain a point. -/
def touching (g : Grid ρ α) (point : ρ) : List (Cell ρ α) :=
  g.cells.filter fun c => Region.isNear c.footprint point && Region.meets c.footprint point

def locatePoints (g : Grid ρ α) (r : ρ) : Except (Fault ε) (Placement α) := do
  let points := (Region.parts r).filter Region.isPoint
  let shares : List (Int × Int × α) := points.flatMap fun p =>
    let cells := g.touching p
    cells.map fun c => (c.row, c.col, (1 : α) / Tally.ratio (cells.length * points.length : Nat) 1)
  let touched := g.cells.filter fun c => shares.any fun s => s.1 = c.row && s.2.1 = c.col
  let hits ← touched.mapM fun c => do
    let own := shares.filter fun s => s.1 = c.row && s.2.1 = c.col
    return (c, ← Fault.add (own.map (·.2.2)))
  if hits.isEmpty then return nowhere
  else
    let hits := inOrder hits
    placement hits (hits.map (·.2))

/-- The cells among the given ones that meet a region, with the measures of their overlaps, as far
as these are positive. -/
def overlaps (r : ρ) (dim : Int) : List (Cell ρ α) →
    Except (Fault ε) (List (Cell ρ α × α))
  | [] => .ok []
  | c :: cs =>
    if Region.meets c.footprint r then do
      let overlap := Region.measure dim (← Fault.meet c.footprint r)
      let rest ← overlaps r dim cs
      return if 0 < overlap then (c, overlap) :: rest else rest
    else overlaps r dim cs

def locate (g : Grid ρ α) (r : ρ) : Except (Fault ε) (Placement α) :=
  let dim := Region.dimension r
  if dim < 0 then .ok nowhere
  else if dim = 0 then locatePoints g r
  else
    let total := Region.measure dim r
    if total ≤ 0 then
      let met := (g.near r).filter fun c => Region.meets c.footprint r
      let hits := inOrder (met.map fun c => (c, 1))
      if hits.isEmpty then .ok nowhere
      else placement hits (hits.map fun _ => 1 / Tally.ratio (hits.length : Nat) 1)
    else do
      let hits := inOrder (← overlaps r dim (g.near r))
      if hits.isEmpty then return nowhere
      else
        let counted ← Fault.add (hits.map (·.2))
        let scale : α ←
          if dim = 1 ∧ 0 < counted then do
            let inside := Region.measure dim (← Fault.meet g.extent r)
            let share := inside / counted
            pure ((if 1 < share then 1 else share) / total)
          else pure (1 / total)
        placement hits (hits.map fun h => h.2 * scale)

def covers (g : Grid ρ α) (r : ρ) : Except (Fault ε) Bool :=
  let dim := Region.dimension r
  if dim < 0 then .ok false
  else
    let total := Region.measure dim r
    if dim = 0 ∨ total ≤ 0 then .ok (Region.covers g.extent r)
    else do
      let inside := Region.measure dim (← Fault.meet g.extent r)
      return decide (coveredShare < inside / total)

end Grid

end Gridding
