import Gridding.Geometry.Overlay
import Gridding.Geometry.Relation
import Gridding.Geometry.Simplify
import Gridding.Geometry.WellKnownBinary
import Gridding.Numeric.Decimal
import Gridding.Region.Basic
import Gridding.Sphere.Measure
/-!
# Footprints

A footprint is a region given in longitude and latitude. All intersections are taken there, with
edges straight in these coordinates, and all measures are those on the sphere.
-/

namespace Gridding

structure Footprint where
  geometry : Geometry
  deriving BEq, Repr, Inhabited

/-- Why an operation on footprints was refused. -/
inductive GeometryError where
  | notFinite
  | negativeTolerance
  deriving DecidableEq, Repr

namespace Footprint

def empty : Footprint := ⟨.empty⟩

/-- The footprint of a geometry in a declared coordinate system. -/
def ofProjected (g : Geometry) : DeclaredSystem → Except ProjectionError Footprint
  | .missing => .error .geometryWithoutSystem
  | .unknown => .error .unknownSystem
  | .known system =>
    if system.agrees .lonLat then .ok ⟨g⟩
    else (system.convertGeometry .lonLat g).map Footprint.mk

def isEmpty (f : Footprint) : Bool := f.geometry.isEmpty

def dimension (f : Footprint) : Int := f.geometry.dimension

def bounds? (f : Footprint) : Option Bounds := f.geometry.bounds?

def measure (f : Footprint) (dimension : Int) : Float := f.geometry.measure dimension

/-- The measure in the footprint's own dimension. -/
def size (f : Footprint) : Float := f.measure f.dimension

def meets (a b : Footprint) : Bool := a.geometry.meets b.geometry

def meet (a b : Footprint) : Footprint := ⟨a.geometry.meet b.geometry⟩

/-- The union of footprints with finite coordinates. -/
def union (fs : List Footprint) : Except GeometryError Footprint :=
  match fs.filter fun f => !f.isEmpty with
  | [] => .ok empty
  | present =>
    if present.all fun f => f.geometry.points.all fun p => p.x.isFinite && p.y.isFinite then
      .ok ⟨Geometry.join (present.map (·.geometry))⟩
    else .error .notFinite

/-- The footprint with simplified edges, itself for the tolerance zero. Nothing is left of it if the
tolerance is not a number. -/
def simplify (tolerance : Float) (f : Footprint) : Except GeometryError Footprint :=
  if tolerance == 0.0 then .ok f
  else if tolerance.isNaN then .ok empty
  else
    match f.geometry.simplify? tolerance with
    | some g => .ok ⟨g⟩
    | none => .error .negativeTolerance

def bytes (f : Footprint) : List UInt8 := WellKnownBinary.encode f.geometry

def describe (f : Footprint) : String :=
  "Footprint(" ++ f.geometry.kindName ++ ", area=" ++ Decimal.general 6 f.geometry.area ++ " m2)"

instance : Region Footprint Float GeometryError where
  dimension := dimension
  isNear a b := a.geometry.isNear b.geometry
  meets := meets
  meet a b := .ok (a.meet b)
  measure d f := f.measure d
  covers a b := a.geometry.covers b.geometry
  union := union
  parts f := f.geometry.parts.map Footprint.mk
  isPoint f := f.geometry.isPoint

end Footprint

end Gridding
