import Gridding.Geometry.Basic
import Gridding.Projection.Lambert
/-!
# Coordinate systems

Coordinates are longitude and latitude in degrees, or metres of the web Mercator or a Lambert
conformal projection. `convert` maps coordinates of one system to another one and refuses what has
no finite image.
-/

namespace Gridding

/-- Why coordinates or a coordinate system were refused. -/
inductive ProjectionError where
  | unknownSystem
  | noConversion
  | outsideDomain
  | notFinite
  | invalidCone
  | unsupportedGridType (kind : Int)
  | geometryWithoutSystem
  | sourceWithoutSystem
  | sourceNotConvertible
  deriving DecidableEq, Repr

def ProjectionError.message : ProjectionError → String
  | unknownSystem => "invalid CRS"
  | noConversion => "cannot transform"
  | outsideDomain => "coordinate transform failed"
  | notFinite => "coordinate transform produced non-finite values"
  | invalidCone => "invalid LCC parameters"
  | unsupportedGridType kind => "unsupported IOAPI grid type GDTYP=" ++ toString kind
  | geometryWithoutSystem => "geometry has no coordinate reference system"
  | sourceWithoutSystem => "surrogate source has no CRS"
  | sourceNotConvertible => "cannot reproject surrogate source"

inductive CoordinateSystem where
  | lonLat
  | webMercator
  | lambert (parameters : Lambert) (cone : Lambert.Cone)
  deriving Repr

/-- What a source says about its coordinate system. -/
inductive DeclaredSystem where
  | missing
  | unknown
  | known (system : CoordinateSystem)
  deriving Repr

namespace CoordinateSystem

open Angle

/-- The radius in metres of the sphere that Lambert projections and all measures refer to. -/
def earthRadius : Float := 6370000.0

def mercatorRadius : Float := 6378137.0

/-- The system of a registered name, in any case of letters. -/
def ofName? (name : String) : Option CoordinateSystem :=
  match name.toUpper with
  | "EPSG:4326" => some .lonLat
  | "EPSG:3857" => some .webMercator
  | _ => none

def lambert? (p : Lambert) : Except ProjectionError CoordinateSystem :=
  match p.cone? with
  | some cone => .ok (.lambert p cone)
  | none => .error .invalidCone

/-- The system of a grid type: 1 for longitude and latitude, 2 for a Lambert projection with two
parallels and the coordinates of its centre. The third angle is not used. -/
def ofGridType (kind : Int) (alpha beta _gamma centerX centerY : Float) :
    Except ProjectionError CoordinateSystem :=
  if kind = 1 then .ok .lonLat
  else if kind = 2 then lambert? ⟨alpha, beta, centerY, centerX⟩
  else .error (.unsupportedGridType kind)

/-- Do two systems give the same coordinates to every point? -/
def agrees : CoordinateSystem → CoordinateSystem → Bool
  | lonLat, lonLat => true
  | webMercator, webMercator => true
  | lambert p _, lambert q _ => p.agrees q
  | _, _ => false

/-- Longitude and latitude in radians of a point of a projected system. -/
private def toRadians (s : CoordinateSystem) (x y : Float) : Float × Float :=
  match s with
  | lonLat => (ofDegrees x, ofDegrees y)
  | webMercator =>
    let r := 1.0 / mercatorRadius
    (principal (x * r), (y * r).sinh.atan)
  | lambert _ cone =>
    let r := 1.0 / earthRadius
    let (lam, phi) := cone.inverse (x * r) (y * r)
    (principal (lam + cone.meridian), phi)

private def latitudeSlack : Float := 1e-12

/-- The point of a system at a longitude and a latitude in radians. -/
private def ofRadians (s : CoordinateSystem) (lam phi : Float) : Option (Float × Float) :=
  match s with
  | lonLat => some (toDegrees lam, toDegrees phi)
  | _ =>
    if phi.abs - halfPi > latitudeSlack || lam > 10.0 || lam < -10.0 then none
    else
      let phi := if phi > halfPi then halfPi else if phi < -halfPi then -halfPi else phi
      let lam := principal lam
      match s with
      | lonLat => none
      | webMercator => some (mercatorRadius * lam, mercatorRadius * phi.tan.asinh)
      | lambert _ cone =>
        (cone.forward (principal (lam - cone.meridian)) phi).map fun p =>
          (earthRadius * p.1, earthRadius * p.2)

/-- The coordinates in `target` of points given in `source`; a point outside its domain comes
before one without a finite image. -/
def convert (source target : CoordinateSystem) (ps : List Point) :
    Except ProjectionError (List Point) :=
  if source.agrees target then
    if ps.all fun p => p.x.isFinite && p.y.isFinite then .ok ps else .error .notFinite
  else
    let images := ps.map fun p =>
      if !p.x.isFinite || !p.y.isFinite then some (⟨0.0 / 0.0, 0.0 / 0.0⟩ : Point)
      else
        let (lam, phi) := source.toRadians p.x p.y
        if lam.isNaN || phi.isNaN then some ⟨lam, phi⟩
        else (target.ofRadians lam phi).map fun q => ⟨q.1, q.2⟩
    if images.any Option.isNone then .error .outsideDomain
    else
      let found := images.filterMap id
      if found.all fun p => p.x.isFinite && p.y.isFinite then .ok found else .error .notFinite

/-- The geometry in the coordinates of `target`; heights are dropped. -/
def convertGeometry (source target : CoordinateSystem) (g : Geometry) :
    Except ProjectionError Geometry := do
  let _ ← source.convert target g.points
  return g.mapRuns fun vs =>
    match source.convert target (vs.map (·.toPoint)) with
    | .ok ps => ps.map Point.toVertex
    | .error _ => []

end CoordinateSystem

namespace DeclaredSystem

/-- Do two declared systems agree? Both have to be known. -/
def agrees : DeclaredSystem → DeclaredSystem → Except ProjectionError Bool
  | known a, known b => .ok (a.agrees b)
  | _, _ => .error .unknownSystem

/-- Both systems of a conversion. -/
def pair : DeclaredSystem → DeclaredSystem →
    Except ProjectionError (CoordinateSystem × CoordinateSystem)
  | known a, known b => .ok (a, b)
  | _, _ => .error .noConversion

end DeclaredSystem

end Gridding
