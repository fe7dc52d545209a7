import Gridding.Geometry.Basic
import Gridding.Numeric.Decimal
import Gridding.Numeric.Tally
import Gridding.Projection.System
import Gridding.Region.Basic
import Gridding.Text.Quoted
/-!
# Grids

A grid is a list of cells, each with its row, its column, its polygon in the grid's own coordinates
and its footprint. There are as many cells as rows times columns, and no two have the same row and
column. The extent is the union of the footprints.
-/

namespace Gridding

structure Cell (ρ α : Type) where
  polygon : Geometry
  footprint : ρ
  row : Int
  col : Int
  weight : α
  timezone : Option String

namespace Cell

variable {ρ α : Type}

def place (c : Cell ρ α) : Int × Int := (c.row, c.col)

/-- The cell with another footprint. -/
def map {σ : Type} (f : ρ → σ) (c : Cell ρ α) : Cell σ α :=
  ⟨c.polygon, f c.footprint, c.row, c.col, c.weight, c.timezone⟩

/-- Row and column in one text. -/
def label (c : Cell ρ α) : String := toString c.row ++ "_" ++ toString c.col

def withWeight (c : Cell ρ α) (w : α) : Cell ρ α := { c with weight := w }

/-- Rows first, then columns. -/
def precedes (a b : Cell ρ α) : Bool := a.row < b.row || (a.row = b.row && a.col ≤ b.col)

def describe (c : Cell ρ Float) : String :=
  "GridCell(row=" ++ toString c.row ++ ", col=" ++ toString c.col ++ ", weight=" ++
    Decimal.general 6 c.weight ++ ")"

end Cell

/-- Why a grid was not built; `ε` tells why a union of regions failed. -/
inductive GridError (ε : Type) where
  | cellCount (name : String) (cells : Nat) (nx ny : Int)
  | duplicateCell (name : String) (row col : Int)
  | noSuchCell (name : String) (row col : Int)
  /-- The grid's own coordinate system is not known. -/
  | unknownSystem
  | projection (e : ProjectionError)
  | negativeSize
  | missingTimezone
  | region (e : ε)
  deriving DecidableEq, Repr

/-- The wording of an error that has one. -/
def GridError.message? {ε : Type} : GridError ε → Option String
  | cellCount name cells nx ny =>
    some ("grid " ++ name ++ ": " ++ toString cells ++ " cells for " ++ toString nx ++ "x" ++
      toString ny ++ " dimensions")
  | duplicateCell name row col =>
    some ("grid " ++ name ++ ": duplicate cell row=" ++ toString row ++ " col=" ++ toString col)
  | noSuchCell name row col =>
    some ("grid " ++ name ++ " has no cell row=" ++ toString row ++ " col=" ++ toString col)
  | projection e => some e.message
  | unknownSystem => none
  | negativeSize => none
  | missingTimezone => none
  | region _ => none

/-- The cell size and the origin of a regular grid. -/
structure Spacing (α : Type) where
  dx : α
  dy : α
  x0 : α
  y0 : α
  deriving Repr

structure Grid (ρ α : Type) where
  name : String
  nx : Int
  ny : Int
  cells : List (Cell ρ α)
  extent : ρ
  /-- An irregular grid, or one given by its cells, has none. -/
  spacing : Option (Spacing α)
  isIrregular : Bool

namespace Grid

variable {ρ α ε : Type}

def map {σ : Type} (f : ρ → σ) (g : Grid ρ α) : Grid σ α :=
  ⟨g.name, g.nx, g.ny, g.cells.map (·.map f), f g.extent, g.spacing, g.isIrregular⟩

/-- The first place that occurs a second time. -/
def repeatedPlace? : List (Int × Int) → List (Int × Int) → Option (Int × Int)
  | _, [] => none
  | seen, p :: ps => if seen.contains p then some p else repeatedPlace? (p :: seen) ps

/-- Builds a grid of given cells whose coordinate system may not be known. -/
def ofCells [Region ρ α ε] (name : String) (cells : List (Cell ρ α)) (nx ny : Int)
    (system : DeclaredSystem) (spacing : Option (Spacing α)) (isIrregular : Bool) :
    Except (GridError ε) (Grid ρ α) :=
  if (cells.length : Int) ≠ nx * ny then .error (.cellCount name cells.length nx ny)
  else
    match repeatedPlace? [] (cells.map (·.place)), system with
    | some (row, col), _ => .error (.duplicateCell name row col)
    | none, .known _ => do
      let extent ← (Region.union (cells.map (·.footprint))).mapError .region
      return ⟨name, nx, ny, cells, extent, spacing, isIrregular⟩
    | none, _ => .error .unknownSystem

def cellAt (g : Grid ρ α) (row col : Int) : Except (GridError ε) (Cell ρ α) :=
  match g.cells.find? fun c => c.row = row && c.col = col with
  | some c => .ok c
  | none => .error (.noSuchCell g.name row col)

/-- The cells that can meet a region, by the bounds of both. -/
def near [Region ρ α ε] (g : Grid ρ α) (r : ρ) : List (Cell ρ α) :=
  g.cells.filter fun c => Region.isNear c.footprint r

def describe (g : Grid ρ α) : String :=
  "GridDefinition(" ++ Text.quoted g.name ++ ", " ++
    (if g.isIrregular then "irregular" else "regular") ++ ", nx=" ++ toString g.nx ++ ", ny=" ++
    toString g.ny ++ ")"

end Grid

end Gridding
