import Gridding.Geometry.GeoJson
import Gridding.Grid.Described
import Gridding.Grid.Irregular
/-!
# Grids as documents

A grid is regular, made of polygons or of cells, looked up in a description, or given by the
attributes of a data file. Where no coordinate system is named it is that of longitude and latitude.
-/

namespace Gridding

namespace Grid

private def system (d : Document) (name : String) : Except DescribedError DeclaredSystem :=
  (DeclaredSystem.ofMember d name).mapError .system

private def integer (d : Document) (name : String) : Except DescribedError Int :=
  ((d.field name).toInteger).mapError .number

private def regularOf (d : Document) : Except DescribedError (Grid Footprint Float) := do
  let s ← system d "crs"
  let nx ← integer d "nx"
  let ny ← integer d "ny"
  let spacing : Spacing Float := ⟨(d.field "dx").float, (d.field "dy").float, (d.field "x0").float,
    (d.field "y0").float⟩
  (regular (d.field "name").wording nx ny spacing s).mapError .grid

private def polygonsOf (d : Document) : Except DescribedError (Grid Footprint Float) := do
  let input ← system d "input_crs"
  let output ← match d.field "output_crs" with
    | .null => pure none
    | _ => (system d "output_crs").map some
  let timezones := match d.field "timezones" with
    | .list ts => some (ts.map Document.text?)
    | _ => none
  let polygons := (d.field "polygons").items.map Geometry.ofDocument
  (ofPolygons (d.field "name").wording polygons input output timezones).mapError .grid

private def cellOfDocument (d : Document) : Except DescribedError (Cell Footprint Float) := do
  let g := Geometry.ofDocument (d.field "polygon")
  let row ← integer d "row"
  let col ← integer d "col"
  let weight := match d.field "weight" with
    | .null => 0.0
    | w => w.float
  return ⟨g, ⟨g⟩, row, col, weight, (d.field "timezone").text?⟩

private def cellsOf (d : Document) : Except DescribedError (Grid Footprint Float) := do
  let s ← system d "crs"
  let cells ← (d.field "cells").items.mapM cellOfDocument
  (ofCells (d.field "name").wording cells (d.field "nx").whole (d.field "ny").whole s none
    false).mapError .grid

def ofDocument (d : Document) : Except DescribedError (Grid Footprint Float) :=
  match (d.field "kind").wording with
  | "regular" => regularOf d
  | "irregular" => polygonsOf d
  | "cells" => cellsOf d
  | "griddesc" => do
    let catalog ← (Description.read (d.field "text").wording).mapError .description
    catalog.grid (d.field "grid_name").wording
  | _ => do
    let attributes ← (GridAttributes.read (d.field "attrs").members).mapError .number
    attributes.grid

end Grid

end Gridding
