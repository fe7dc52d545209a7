import Gridding.Geometry.Location
/-!
# Meeting and covering

Two geometries meet if their closed point sets have a common point; one covers another if it
leaves no point of it outside. Both are decided exactly on the given vertices.
-/

namespace Gridding.Geometry

private def segmentsOfAtom : Geometry → List Segment
  | .polygon rings => rings.flatMap ringSegments
  | .lineString vs => ringSegments vs
  | .linearRing vs => ringSegments vs
  | _ => []

private def edgeSegments (g : Geometry) : List Segment := g.atoms.flatMap segmentsOfAtom

/-- One vertex of every connected run of edges. -/
private def startsOfAtom : Geometry → List Point
  | .polygon rings => rings.filterMap fun r => (r.head?).map (·.toPoint)
  | g => (g.atomVertices.head?.map (·.toPoint)).toList

private def starts (g : Geometry) : List Point := g.atoms.flatMap startsOfAtom

/-- Do the closed point sets of two geometries meet? -/
def meets (a b : Geometry) : Bool :=
  match a.bounds?, b.bounds? with
  | some ba, some bb =>
    if !ba.meets bb then false
    else
      let sa := (edgeSegments a).filter fun s => s.bounds.meets bb
      let sb := (edgeSegments b).filter fun s => s.bounds.meets ba
      a.starts.any b.touches || b.starts.any a.touches ||
        sa.any fun s => sb.any fun t => s.meets t
  | _, _ => false

/-- The middle points of the pieces into which the edges of `a` divide a segment. -/
private def middles (a : Geometry) (s : Segment) : List Point :=
  if s.isTrivial then []
  else
    let cuts := (edgeSegments a).flatMap fun t =>
      if t.isTrivial then [] else (Crossing.ofSegments s t).points
    let far (p : Point) : Float := Segment.length ⟨s.start, p⟩
    let sorted := (s.start :: s.stop :: cuts).mergeSort fun p q => far p ≤ far q
    (segmentsOf sorted).filterMap fun t =>
      if t.isTrivial then none
      else some ⟨(t.start.x + t.stop.x) / 2.0, (t.start.y + t.stop.y) / 2.0⟩

/-- Does `a` leave no vertex and no part of an edge of the nonempty geometry `b` outside? -/
def covers (a b : Geometry) : Bool :=
  !a.isEmpty && !b.isEmpty && b.points.all a.touches &&
    (edgeSegments b).all fun s => (middles a s).all a.touches

end Gridding.Geometry
