import Gridding.Geometry.Basic
import Gridding.Projection.System
import Gridding.Sphere.RingArea
/-!
# Measures of a geometry on the sphere

Area, length and number of points of a geometry in longitude and latitude. Areas look through any
nest of collections; lengths and points are those of the direct parts. Areas and lengths are sums in
any numbers of what is given for a single polygon or line. Distances are along great circles.
-/

namespace Gridding

/-- The angle between two points, from the half-angle sine and cosine, both sums of positive terms
and so exact for near and for opposite points alike. -/
def centralAngle (p q : Point) : Float :=
  let (ms, mc) := Angle.sinCosDegrees ((q.x - p.x) * 0.5)
  let (ds, dc) := Angle.sinCosDegrees ((q.y - p.y) * 0.5)
  let (ts, tc) := Angle.sinCosDegrees ((q.y + p.y) * 0.5)
  let square (x : Float) : Float := x * x
  let near := square (mc * ds) + square (ms * tc)
  let far := square (mc * dc) + square (ms * ts)
  2.0 * Float.atan2 near.sqrt far.sqrt

/-- The great circle distance in metres; there is none beyond the poles. -/
def distance (p q : Point) : Float :=
  if p.y.abs > 90.0 || q.y.abs > 90.0 then 0.0 / 0.0
  else CoordinateSystem.earthRadius * centralAngle p q

namespace Geometry

private def lonLat (vs : List Vertex) : List (Float × Float) := vs.map fun v => (v.x, v.y)

/-- The area of a polygon on the unit sphere: the shell less the holes, and never negative. -/
def polygonArea : List (List Vertex) → Float
  | [] => 0.0
  | shell :: holes =>
    let area := holes.foldl (fun a h => a - Ring.area (lonLat h)) (Ring.area (lonLat shell))
    if area < 0.0 then 0.0 else area

section Sums

variable {α : Type} [Zero α] [Add α]

mutual

/-- The sum over all polygons in a geometry. -/
def sumPolygons (size : List (List Vertex) → α) : Geometry → α
  | .polygon rings => size rings
  | .collection _ ps => sumPolygonsOfList size 0 ps
  | _ => 0

def sumPolygonsOfList (size : List (List Vertex) → α) (sum : α) : List Geometry → α
  | [] => sum
  | g :: gs => sumPolygonsOfList size (sum + sumPolygons size g) gs

end

/-- The area on a sphere, from the areas of polygons on the unit sphere. -/
def areaBy [Mul α] (size : List (List Vertex) → α) (radius : α) (g : Geometry) : α :=
  g.sumPolygons size * radius * radius

/-- The length of a part that is a line, a ring or a collection of lines. -/
def lengthOfPart (size : List Vertex → α) : Geometry → α
  | .lineString vs => size vs
  | .linearRing vs => size vs
  | .collection .lines ps => (ps.map fun p => size p.atomVertices).foldl (· + ·) 0
  | _ => 0

/-- The length of the lines in a geometry, from that of single lines. -/
def lengthBy (size : List Vertex → α) (g : Geometry) : α :=
  if g.isEmpty then 0 else (g.parts.map (lengthOfPart size)).foldl (· + ·) 0

end Sums

def area (g : Geometry) : Float := g.areaBy polygonArea CoordinateSystem.earthRadius

def pathLength (vs : List Vertex) : Float :=
  let ps := vs.map (·.toPoint)
  (List.zipWith distance ps ps.tail).foldl (· + ·) 0.0

def length (g : Geometry) : Float := g.lengthBy pathLength

def isPoint : Geometry → Bool
  | .point _ => true
  | _ => false

/-- The number of parts that are points. -/
def pointTotal (g : Geometry) : Nat := if g.isEmpty then 0 else g.parts.countP isPoint

def pointCount (g : Geometry) : Float := Float.ofNat g.pointTotal

/-- Area, length or number of points by dimension. -/
def measure (dimension : Int) (g : Geometry) : Float :=
  if dimension ≥ 2 then g.area
  else if dimension = 1 then g.length
  else if dimension = 0 then g.pointCount
  else 0.0

end Geometry

end Gridding
