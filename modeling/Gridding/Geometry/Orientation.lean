import Gridding.Geometry.Basic
import Gridding.Numeric.Binary
/-!
# Orientation of three points

`orientation p q r` tells the side of the line from `p` to `q` on which `r` lies. The sign is that
of the exact determinant: the double result decides where its rounding error cannot matter, and
integers over a common exponent decide elsewhere.
-/

namespace Gridding

inductive Side where
  | left
  | on
  | right
  deriving DecidableEq, Repr

namespace Side

def ofSign (n : Int) : Side := if n > 0 then left else if n < 0 then right else on

end Side

/-- The exact sign of `(q - p) × (r - p)`. -/
def exactOrientation (p q r : Point) : Side :=
  let cs := [p.x, p.y, q.x, q.y, r.x, r.y]
  match cs.map (Binary.scaled (Binary.commonExponent cs)) with
  | [px, py, qx, qy, rx, ry] => Side.ofSign ((qx - px) * (ry - py) - (qy - py) * (rx - px))
  | _ => .on

def orientation (p q r : Point) : Side :=
  let a := (p.x - r.x) * (q.y - r.y)
  let b := (p.y - r.y) * (q.x - r.x)
  let det := a - b
  let bound := 1e-15 * (a.abs + b.abs)
  if det > bound then .left
  else if det < -bound then .right
  else exactOrientation p q r

/-- Is `r` on the closed segment from `p` to `q`? -/
def onSegment (p q r : Point) : Bool :=
  ((Bounds.ofPoint p).extend q).contains r && orientation p q r == .on

end Gridding
