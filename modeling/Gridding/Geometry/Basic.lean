/-!
# Planar geometries

A geometry is a point, a line, a ring, a polygon with holes, or a collection of geometries. Lines
and rings list their vertices; a ring repeats its first vertex at the end. `atoms` lists the
geometries of a nest of collections that are not collections themselves. A vertex may carry a
height, which no measure and no relation looks at.
-/

namespace Gridding

structure Point where
  x : Float
  y : Float
  deriving BEq, Repr, Inhabited

structure Vertex extends Point where
  height : Option Float
  deriving BEq, Repr, Inhabited

def Point.toVertex (p : Point) : Vertex := ⟨p, none⟩

/-- What a collection is meant to hold. -/
inductive Family where
  | points
  | lines
  | polygons
  | mixed
  deriving DecidableEq, Repr

inductive Geometry where
  | point (v : Option Vertex)
  | lineString (vs : List Vertex)
  | linearRing (vs : List Vertex)
  /-- The shell comes first. -/
  | polygon (rings : List (List Vertex))
  | collection (family : Family) (parts : List Geometry)
  deriving BEq, Repr, Inhabited

structure Bounds where
  minX : Float
  minY : Float
  maxX : Float
  maxY : Float
  deriving BEq, Repr, Inhabited

namespace Bounds

def ofPoint (p : Point) : Bounds := ⟨p.x, p.y, p.x, p.y⟩

def extend (b : Bounds) (p : Point) : Bounds :=
  ⟨if p.x < b.minX then p.x else b.minX, if p.y < b.minY then p.y else b.minY,
   if p.x > b.maxX then p.x else b.maxX, if p.y > b.maxY then p.y else b.maxY⟩

/-- Touching bounds meet. -/
def meets (a b : Bounds) : Bool :=
  a.minX ≤ b.maxX && b.minX ≤ a.maxX && a.minY ≤ b.maxY && b.minY ≤ a.maxY

def contains (b : Bounds) (p : Point) : Bool :=
  b.minX ≤ p.x && p.x ≤ b.maxX && b.minY ≤ p.y && p.y ≤ b.maxY

def ofPoints : List Point → Option Bounds
  | [] => none
  | p :: ps => some (ps.foldl extend (ofPoint p))

end Bounds

namespace Geometry

/-- The polygon over a rectangle of coordinates, from its lower right corner upwards. -/
def box (b : Bounds) : Geometry :=
  .polygon [[⟨b.maxX, b.minY⟩, ⟨b.maxX, b.maxY⟩, ⟨b.minX, b.maxY⟩, ⟨b.minX, b.minY⟩,
    ⟨b.maxX, b.minY⟩].map Point.toVertex]

def empty : Geometry := .polygon []

mutual

def atoms : Geometry → List Geometry
  | .collection _ parts => atomsOfList parts
  | g => [g]

def atomsOfList : List Geometry → List Geometry
  | [] => []
  | g :: gs => atoms g ++ atomsOfList gs

end

/-- The vertices of a geometry that is no collection. -/
def atomVertices : Geometry → List Vertex
  | .point v => v.toList
  | .lineString vs => vs
  | .linearRing vs => vs
  | .polygon rings => rings.flatten
  | .collection _ _ => []

def vertices (g : Geometry) : List Vertex := g.atoms.flatMap atomVertices

def points (g : Geometry) : List Point := g.vertices.map (·.toPoint)

def isEmpty (g : Geometry) : Bool := g.atoms.all fun a => a.atomVertices.isEmpty

def bounds? (g : Geometry) : Option Bounds := Bounds.ofPoints g.points

mutual

/-- The dimension of the points a geometry of this kind is meant to hold, empty or not. -/
def kindDimension : Geometry → Int
  | .point _ => 0
  | .lineString _ => 1
  | .linearRing _ => 1
  | .polygon _ => 2
  | .collection .points _ => 0
  | .collection .lines _ => 1
  | .collection .polygons _ => 2
  | .collection .mixed parts => kindDimensionOfList parts

def kindDimensionOfList : List Geometry → Int
  | [] => -1
  | g :: gs => max (kindDimension g) (kindDimensionOfList gs)

end

/-- The dimension of a geometry, `-1` if it is empty. -/
def dimension (g : Geometry) : Int := if g.isEmpty then -1 else g.kindDimension

/-- A geometry seen as the list of the parts it is made of. -/
def parts : Geometry → List Geometry
  | .collection _ ps => ps
  | g => [g]

def kindName : Geometry → String
  | .point _ => "Point"
  | .lineString _ => "LineString"
  | .linearRing _ => "LinearRing"
  | .polygon _ => "Polygon"
  | .collection .points _ => "MultiPoint"
  | .collection .lines _ => "MultiLineString"
  | .collection .polygons _ => "MultiPolygon"
  | .collection .mixed _ => "GeometryCollection"

mutual

/-- Replaces every run of vertices (a point, a line or one ring) by its image. -/
def mapRuns (f : List Vertex → List Vertex) : Geometry → Geometry
  | .point v => .point (f v.toList).head?
  | .lineString vs => .lineString (f vs)
  | .linearRing vs => .linearRing (f vs)
  | .polygon rings => .polygon (rings.map f)
  | .collection family ps => .collection family (mapRunsOfList f ps)

def mapRunsOfList (f : List Vertex → List Vertex) : List Geometry → List Geometry
  | [] => []
  | g :: gs => mapRuns f g :: mapRunsOfList f gs

end

end Geometry

end Gridding
