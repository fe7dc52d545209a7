import Gridding.Grid.Basic
import Gridding.Sphere.Footprint
/-!
# Irregular grids

One cell for each polygon, all in one column and in the order given. The polygons may be brought
into another coordinate system first; each cell may have a time zone.
-/

namespace Gridding.Grid

private def timezoneAt (timezones : Option (List (Option String))) (i : Nat) :
    Except (GridError GeometryError) (Option String) :=
  match timezones with
  | none => .ok none
  | some names =>
    match names[i]? with
    | some name => .ok name
    | none => .error .missingTimezone

private def cellOf (input output : CoordinateSystem) (timezones : Option (List (Option String)))
    (i : Nat) (polygon : Geometry) : Except (GridError GeometryError) (Cell Footprint Float) := do
  let working ← if input.agrees output then pure polygon
    else (input.convertGeometry output polygon).mapError .projection
  let timezone ← timezoneAt timezones i
  let footprint ← (Footprint.ofProjected working (.known output)).mapError .projection
  return ⟨working, footprint, i, 0, 0.0, timezone⟩

/-- The grid of the given polygons; without an output system they stay in the one they came in. -/
def ofPolygons (name : String) (polygons : List Geometry) (input : DeclaredSystem)
    (output : Option DeclaredSystem) (timezones : Option (List (Option String))) :
    Except (GridError GeometryError) (Grid Footprint Float) := do
  let output := output.getD input
  match input, output with
  | .known a, .known b =>
    let numbered := (List.range polygons.length).zip polygons
    let cells ← numbered.mapM fun (i, p) => cellOf a b timezones i p
    ofCells name cells 1 cells.length output none true
  | _, _ => .error (.projection .unknownSystem)

end Gridding.Grid
