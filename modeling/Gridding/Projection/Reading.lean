import Gridding.Document.Access
import Gridding.Projection.System
/-!
# Coordinate systems as documents

A system is named by its code, or given by its type and the five parameters that go with it.
-/

namespace Gridding

inductive SystemError where
  | parameterCount
  | number (e : NumberError)
  | projection (e : ProjectionError)
  deriving DecidableEq, Repr

def CoordinateSystem.ofParameters (parameters : List Document) :
    Except SystemError CoordinateSystem :=
  match parameters with
  | [kind, a, b, c, x, y] => do
    let kind ← kind.toInteger.mapError .number
    (ofGridType kind a.float b.float c.float x.float y.float).mapError .projection
  | _ => .error .parameterCount

namespace DeclaredSystem

def ofName (name : String) : DeclaredSystem :=
  match CoordinateSystem.ofName? name with
  | some system => known system
  | none => unknown

def ofDocument : Document → Except SystemError DeclaredSystem
  | .null => .ok missing
  | .text s => .ok (ofName s)
  | .integer n => .ok (ofName ("EPSG:" ++ toString n))
  | .object ms =>
    (CoordinateSystem.ofParameters ((Document.object ms).field "ioapi").items).map known
  | _ => .ok unknown

/-- The system under a name, longitude and latitude if there is none. -/
def ofMember (d : Document) (name : String) : Except SystemError DeclaredSystem :=
  match d.member? name with
  | some v => ofDocument v
  | none => .ok (known .lonLat)

end DeclaredSystem

end Gridding
