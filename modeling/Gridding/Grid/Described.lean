import Gridding.Grid.Attributes
import Gridding.Grid.Description
import Gridding.Grid.Regular
import Gridding.Projection.Reading
import Gridding.Sphere.Footprint
/-!
# Grids by name and by attributes

The regular grid that a description has under a name, and the one that the attributes of a data file
give.
-/

namespace Gridding

inductive DescribedError where
  | description (p : Description.Problem)
  /-- An entry has fewer numbers than a grid needs. -/
  | shortEntry
  | number (e : NumberError)
  | system (e : SystemError)
  | grid (e : GridError GeometryError)

def Description.Catalog.grid (c : Description.Catalog) (name : String) :
    Except DescribedError (Grid Footprint Float) := do
  let (parameters, entry) ← (c.lookUp name).mapError .description
  match entry.numbers with
  | x0 :: y0 :: dx :: dy :: columns :: rows :: _ =>
    let system ← (CoordinateSystem.ofParameters (parameters.map .number)).mapError .system
    let nx ← (integerPart? columns).mapError .number
    let ny ← (integerPart? rows).mapError .number
    (Grid.regular (Description.cleanName name) nx ny ⟨dx, dy, x0, y0⟩
      (.known system)).mapError .grid
  | _ => .error .shortEntry

def GridAttributes.grid (a : GridAttributes) : Except DescribedError (Grid Footprint Float) := do
  let system ← (CoordinateSystem.ofGridType a.gridType a.alpha a.beta a.gamma a.centerX
    a.centerY).mapError fun e => .system (.projection e)
  (Grid.regular a.name a.columns a.rows ⟨a.cellWidth, a.cellHeight, a.originX, a.originY⟩
    (.known system)).mapError .grid

end Gridding
