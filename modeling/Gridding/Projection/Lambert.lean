import Gridding.Numeric.Hypotenuse
/-!
# Lambert conformal conic projection of the sphere

A projection is given by two standard parallels and an origin, in degrees. `cone?` gives its
constants, unless the parallels are opposite, at a pole or beyond; `forward` and `inverse` map
between radians and the plane of the unit sphere.
-/

namespace Gridding

structure Lambert where
  firstParallel : Float
  secondParallel : Float
  originLatitude : Float
  originLongitude : Float
  deriving BEq, Repr, Inhabited

namespace Angle

def pi : Float := 3.14159265358979323846
def halfPi : Float := 1.57079632679489661923
def quarterPi : Float := 0.78539816339744830962

def ofDegrees (d : Float) : Float := d * 0.017453292519943295
def toDegrees (r : Float) : Float := r * 57.29577951308232

/-- Sine and cosine of an angle in degrees, exact at all multiples of a right angle. -/
def sinCosDegrees (d : Float) : Float × Float :=
  let quarter := (d / 90.0).round
  let r := ofDegrees (d - 90.0 * quarter)
  let turns := quarter - 4.0 * (quarter / 4.0).floor
  if turns == 0.0 then (r.sin, r.cos)
  else if turns == 1.0 then (r.cos, -r.sin)
  else if turns == 2.0 then (-r.sin, -r.cos)
  else (-r.cos, r.sin)

/-- The angle up to full turns, between `-π` and `π`; an angle within rounding of these is kept. -/
def principal (r : Float) : Float :=
  if r.abs < pi + 1e-12 then r
  else
    let t := r + pi
    t - 2.0 * pi * (t / (2.0 * pi)).floor - pi

end Angle

namespace Lambert

open Angle

/-- The constants of a projection: the exponent of the cone, the scale of its radius, the radius
at the origin and the central meridian. -/
structure Cone where
  exponent : Float
  scale : Float
  originRadius : Float
  meridian : Float
  deriving Repr

private def tolerance : Float := 1e-10

/-- Do two projections agree up to rounding? The order of the parallels does not matter. -/
def agrees (p q : Lambert) : Bool :=
  let same (a b : Float) : Bool := (a - b).abs ≤ tolerance * a.abs
  ((same p.firstParallel q.firstParallel && same p.secondParallel q.secondParallel) ||
    (same p.firstParallel q.secondParallel && same p.secondParallel q.firstParallel)) &&
    same p.originLatitude q.originLatitude && same p.originLongitude q.originLongitude

def cone? (p : Lambert) : Option Cone :=
  let phi1 := ofDegrees p.firstParallel
  let phi2 := ofDegrees p.secondParallel
  let phi0 := ofDegrees p.originLatitude
  let atPole (phi : Float) : Bool := phi.cos.abs < tolerance || phi.abs ≥ halfPi
  let finite := [phi1, phi2, phi0, p.originLongitude].all Float.isFinite
  if !finite || (phi1 + phi2).abs < tolerance || atPole phi1 || atPole phi2 ||
      phi0.abs > halfPi then none
  else
    let half (phi : Float) : Float := (quarterPi + 0.5 * phi).tan
    let n := if (phi1 - phi2).abs ≥ tolerance then
        (phi1.cos / phi2.cos).log / (half phi2 / half phi1).log
      else phi1.sin
    if n == 0.0 then none
    else
      let c := phi1.cos * (half phi1).pow n / n
      let rho0 := if (phi0.abs - halfPi).abs < tolerance then 0.0 else c * (half phi0).pow (-n)
      some ⟨n, c, rho0, ofDegrees p.originLongitude⟩

/-- Longitude from the central meridian and latitude to the plane; the pole opposite to the apex
has no image. -/
def Cone.forward (k : Cone) (lam phi : Float) : Option (Float × Float) :=
  let rho? : Option Float :=
    if (phi.abs - halfPi).abs < tolerance then
      if phi * k.exponent ≤ 0.0 then none else some 0.0
    else some (k.scale * (quarterPi + 0.5 * phi).tan.pow (-k.exponent))
  rho?.map fun rho =>
    let t := lam * k.exponent
    (rho * t.sin, k.originRadius - rho * t.cos)

def Cone.inverse (k : Cone) (x y : Float) : Float × Float :=
  let y := k.originRadius - y
  let rho := hypotenuse x y
  if rho == 0.0 then (0.0, if k.exponent > 0.0 then halfPi else -halfPi)
  else
    let (rho, x, y) := if k.exponent < 0.0 then (-rho, -x, -y) else (rho, x, y)
    let phi := 2.0 * ((k.scale / rho).pow (1.0 / k.exponent)).atan - halfPi
    (Float.atan2 x y / k.exponent, phi)

end Lambert

end Gridding
