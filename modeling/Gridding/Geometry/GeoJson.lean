import Gridding.Document.Access
import Gridding.Geometry.Basic
/-!
# Geometries as documents

A geometry has a type and coordinates or, if it is mixed, geometries of its own. A box may be given
by its bounds alone. Nothing stands for the empty geometry.
-/

namespace Gridding

def Vertex.ofDocument (d : Document) : Vertex :=
  match d.items.map Document.float with
  | x :: y :: z :: _ => ⟨⟨x, y⟩, some z⟩
  | [x, y] => ⟨⟨x, y⟩, none⟩
  | _ => ⟨⟨0.0 / 0.0, 0.0 / 0.0⟩, none⟩

def Bounds.ofDocument (d : Document) : Bounds :=
  match d.items.map Document.float with
  | [minX, minY, maxX, maxY] => ⟨minX, minY, maxX, maxY⟩
  | _ => ⟨0.0 / 0.0, 0.0 / 0.0, 0.0 / 0.0, 0.0 / 0.0⟩

namespace Geometry

def verticesOf (d : Document) : List Vertex := d.items.map Vertex.ofDocument

/-- The vertices of a ring, which is closed if it does not end where it began. -/
def ringOf (d : Document) : List Vertex :=
  let vs := verticesOf d
  match vs.head?, vs.getLast? with
  | some a, some b => if a.toPoint == b.toPoint then vs else vs ++ [a]
  | _, _ => vs

def pointOf (d : Document) : Geometry :=
  .point (if d.items.isEmpty then none else some (Vertex.ofDocument d))

def polygonOf (d : Document) : Geometry := .polygon (d.items.map ringOf)

/-- The geometry of a type with coordinates. -/
def ofCoordinates? (type : String) (cs : Document) : Option Geometry :=
  match type with
  | "Point" => some (pointOf cs)
  | "LineString" => some (.lineString (verticesOf cs))
  | "LinearRing" => some (.linearRing (ringOf cs))
  | "Polygon" => some (polygonOf cs)
  | "MultiPoint" => some (.collection .points (cs.items.map pointOf))
  | "MultiLineString" =>
    some (.collection .lines (cs.items.map fun c => .lineString (verticesOf c)))
  | "MultiPolygon" => some (.collection .polygons (cs.items.map polygonOf))
  | _ => none

mutual

def ofDocument : Document → Geometry
  | .object ms =>
    let d := Document.object ms
    if d.has "box" then .box (Bounds.ofDocument (d.field "box"))
    else
      match ofCoordinates? (d.field "type").wording (d.field "coordinates") with
      | some g => g
      | none => .collection .mixed (geometriesIn ms)
  | _ => .empty

/-- The members of a mixed collection. -/
def geometriesIn : List (String × Document) → List Geometry
  | [] => []
  | (name, d) :: ms => if name == "geometries" then ofItems d else geometriesIn ms

def ofItems : Document → List Geometry
  | .list ds => ofList ds
  | _ => []

def ofList : List Document → List Geometry
  | [] => []
  | d :: ds => ofDocument d :: ofList ds

end

end Geometry

end Gridding
