import Gridding.Surrogate.Rows
/-!
# Layers

A layer is a table with a geometry in every row and a declared coordinate system. Its granules are
those of the table in longitude and latitude.
-/

namespace Gridding

structure Layer where
  geometries : List (Option Geometry)
  columns : List Column
  system : DeclaredSystem

/-- The table in longitude and latitude. A vertex without an image becomes infinite. -/
def Table.inLonLat (declared : DeclaredSystem) (t : Table Footprint) :
    Except ProjectionError (Table Footprint) :=
  match declared with
  | .missing => .error .sourceWithoutSystem
  | .unknown => .error .sourceNotConvertible
  | .known system =>
    if system.agrees .lonLat then .ok t
    else
      let image (v : Vertex) : Vertex :=
        match system.convert .lonLat [v.toPoint] with
        | .ok [p] => ⟨p, v.height⟩
        | _ => ⟨⟨1.0 / 0.0, 1.0 / 0.0⟩, v.height⟩
      .ok { t with regions := t.regions.map fun r => r.map fun f =>
        ⟨f.geometry.mapRuns (·.map image)⟩ }

namespace Layer

def table (l : Layer) : Table Footprint := ⟨l.geometries.map (·.map Footprint.mk), l.columns⟩

/-- What is asked of a layer to make granules of it. -/
structure Request extends Table.Request Footprint Float where
  tolerance : Float

def dataset (l : Layer) (r : Request) : Except LayerError (Dataset Footprint Float) :=
  l.table.dataset (Table.inLonLat l.system) (Footprint.simplify r.tolerance) r.toRequest

end Layer

end Gridding
