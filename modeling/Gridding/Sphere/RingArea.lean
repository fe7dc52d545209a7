import Gridding.Numeric.Tally
/-!
# Area inside a ring on the sphere

The edges of a ring are straight in longitude and latitude. Each adds the integral of the sine of
the latitude over its longitudes, which for a straight edge is the longitude difference times the
sine of the middle latitude times `sin h / h`, with `h` half the latitude difference. The area on
the unit sphere is the absolute value of the sum. Everything is stated for any numbers with these
functions, so that it can be computed in doubles and reasoned about over the reals.
-/

namespace Gridding

/-- Numbers with the functions that areas on the sphere need. -/
class SphereNumber (α : Type) extends Zero α, Add α, Sub α, Mul α where
  radians : α → α
  middle : α → α → α
  sin : α → α
  /-- The quotient `sin h / h` for half of the given angle. -/
  flatness : α → α
  sum : List α → α
  abs : α → α

namespace Ring

variable {α : Type} [SphereNumber α]

/-- The integral of the sine of the latitude along an edge, both ends in radians. -/
def edgeTerm (p q : α × α) : α :=
  (q.1 - p.1) * SphereNumber.sin (SphereNumber.middle p.2 q.2) * SphereNumber.flatness (q.2 - p.2)

def inRadians (p : α × α) : α × α := (SphereNumber.radians p.1, SphereNumber.radians p.2)

/-- The signed integral around a closed list of vertices in degrees. -/
def signedArea (ring : List (α × α)) : α :=
  let vs := ring.map inRadians
  SphereNumber.sum (List.zipWith edgeTerm vs vs.tail)

/-- The area inside a closed list of vertices; three or fewer bound none. -/
def area (ring : List (α × α)) : α :=
  if ring.length < 4 then 0 else SphereNumber.abs (signedArea ring)

end Ring

/-- The sine of `π x` over `π x`, the quotient at zero being taken at a tiny angle. -/
def normalizedSinc (x : Float) : Float :=
  let y := 3.141592653589793 * (if x == 0.0 then 1.0e-20 else x)
  y.sin / y

instance : SphereNumber Float where
  radians d := d * (3.141592653589793 / 180.0)
  middle a b := 0.5 * (a + b)
  sin := Float.sin
  flatness d := normalizedSinc (d / (2.0 * 3.141592653589793))
  sum ts := pairwiseSum ts.toArray
  abs := Float.abs

end Gridding
