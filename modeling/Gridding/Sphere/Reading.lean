import Gridding.Allocation.Basic
import Gridding.Document.Display
import Gridding.Geometry.GeoJson
import Gridding.Projection.Reading
import Gridding.Sphere.Footprint
/-!
# Footprints and shapes as documents

A footprint is a geometry in longitude and latitude, or one with the coordinate system it is in. A
shape has a key besides; its planar bounds are those of the geometry as it is given.
-/

namespace Gridding

private def placedIn (d : Document) (system : Document) : Except SystemError Footprint := do
  let system ← DeclaredSystem.ofDocument system
  (Footprint.ofProjected (Geometry.ofDocument (d.field "geometry")) system).mapError .projection

def Footprint.ofDocument (d : Document) : Except SystemError Footprint :=
  if d.has "geometry" then placedIn d (d.field "crs") else .ok ⟨Geometry.ofDocument d⟩

def Shape.ofDocument (d : Document) : Except SystemError (Shape Footprint) := do
  let g := Geometry.ofDocument (d.field "geometry")
  let f ← match d.member? "crs" with
    | some system => placedIn d system
    | none => pure ⟨g⟩
  return ⟨(d.field "key").display, f, g.bounds?⟩

end Gridding
