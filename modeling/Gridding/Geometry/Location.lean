import Gridding.Geometry.Crossing
/-!
# Where a point lies

A ring splits the plane into an inside and an outside by the parity of the crossings of a
horizontal ray. `Geometry.locate` takes the union of the atoms: a point is inside a geometry as
soon as it is inside one polygon, and on its boundary if it is only on edges, lines or points.
-/

namespace Gridding

inductive Location where
  | inside
  | boundary
  | outside
  deriving DecidableEq, Repr

/-- Does the ray from `p` to the right cross a segment that `p` is not on? Of the ends of the
segment only the upper one counts. -/
def Segment.isRightOf (s : Segment) (p : Point) : Bool :=
  if (s.start.y > p.y) == (s.stop.y > p.y) then false
  else
    let upward := if s.start.y < s.stop.y then s else ⟨s.stop, s.start⟩
    orientation upward.start upward.stop p == .left

/-- Is the number of segments that a ray from `p` crosses odd? -/
def isBehindOdd (segments : List Segment) (p : Point) : Bool :=
  (segments.countP (·.isRightOf p)) % 2 = 1

/-- The place of `p` relative to the closed path `segments`. -/
def locateInRing (segments : List Segment) (p : Point) : Location :=
  if segments.any fun s => onSegment s.start s.stop p then .boundary
  else if isBehindOdd segments p then .inside
  else .outside

def ringSegments (ring : List Vertex) : List Segment := segmentsOf (ring.map (·.toPoint))

def locateInPolygon (rings : List (List Vertex)) (p : Point) : Location :=
  match rings with
  | [] => .outside
  | shell :: holes =>
    let near := match Bounds.ofPoints (shell.map (·.toPoint)) with
      | some b => b.contains p
      | none => false
    if !near then .outside
    else
      match locateInRing (ringSegments shell) p with
      | .inside =>
        let hs := holes.map fun h => locateInRing (ringSegments h) p
        if hs.contains .inside then .outside
        else if hs.contains .boundary then .boundary
        else .inside
      | other => other

namespace Geometry

private def locateInAtom (p : Point) : Geometry → Location
  | .polygon rings => locateInPolygon rings p
  | .point (some v) => if v.toPoint == p then .boundary else .outside
  | .point none => .outside
  | g =>
    let segments := segmentsOf (g.atomVertices.map (·.toPoint))
    if segments.any fun s => onSegment s.start s.stop p then .boundary else .outside

/-- The place of a point relative to the union of the parts of a geometry. -/
def locate (g : Geometry) (p : Point) : Location :=
  let found := g.atoms.map (locateInAtom p)
  if found.contains .inside then .inside
  else if found.contains .boundary then .boundary
  else .outside

def touches (g : Geometry) (p : Point) : Bool := g.locate p != .outside

end Geometry

end Gridding
