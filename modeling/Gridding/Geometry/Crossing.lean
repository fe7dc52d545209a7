import Gridding.Geometry.Orientation
/-!
# Common points of two segments

Two closed segments are apart, share one point or share a segment. Whether they meet is decided
exactly. A shared endpoint and an endpoint inside the other segment are returned as given; the
point at which two segments cross properly is its exact value rounded once, so that it does not
depend on how far along their lines the segments go.
-/

namespace Gridding

structure Segment where
  start : Point
  stop : Point
  deriving BEq, Repr, Inhabited

namespace Segment

def bounds (s : Segment) : Bounds := (Bounds.ofPoint s.start).extend s.stop

def isTrivial (s : Segment) : Bool := s.start == s.stop

def length (s : Segment) : Float :=
  let dx := s.stop.x - s.start.x
  let dy := s.stop.y - s.start.y
  (dx * dx + dy * dy).sqrt

/-- The distance from a point to the segment. -/
def distanceTo (s : Segment) (p : Point) : Float :=
  if s.isTrivial then length ⟨p, s.start⟩
  else
    let dx := s.stop.x - s.start.x
    let dy := s.stop.y - s.start.y
    let len2 := dx * dx + dy * dy
    let r := ((p.x - s.start.x) * dx + (p.y - s.start.y) * dy) / len2
    if r ≤ 0.0 then length ⟨p, s.start⟩
    else if r ≥ 1.0 then length ⟨p, s.stop⟩
    else
      let t := ((s.start.y - p.y) * dx - (s.start.x - p.x) * dy) / len2
      t.abs * len2.sqrt

end Segment

/-- The points of a path, joined in order. -/
def segmentsOf (ps : List Point) : List Segment := List.zipWith Segment.mk ps ps.tail

inductive Crossing where
  | apart
  | point (p : Point)
  | segment (s : Segment)
  deriving BEq, Repr

namespace Crossing

/-- The point at which two segments cross, as `start + share * (stop - start)` of the first one with
the exact share of it that comes before the point. -/
private def properMeeting (s t : Segment) : Point :=
  let cs := [s.start.x, s.start.y, s.stop.x, s.stop.y, t.start.x, t.start.y, t.stop.x, t.stop.y]
  let low := Binary.commonExponent cs
  match cs.map (Binary.scaled low) with
  | [ax, ay, bx, by', cx, cy, dx, dy] =>
    let whole := (bx - ax) * (dy - cy) - (by' - ay) * (dx - cx)
    let part := (cx - ax) * (dy - cy) - (cy - ay) * (dx - cx)
    let at' (a b : Int) : Float :=
      let (num, den) := (⟨(a * whole + part * (b - a)) * whole.sign, low⟩ : Binary).ratio
      Binary.roundRatio num (den * whole.natAbs)
    ⟨at' ax bx, at' ay by'⟩
  | _ => s.start

private def ofEnds (p q : Point) : Crossing := if p == q then .point p else .segment ⟨p, q⟩

private def collinear (s t : Segment) : Crossing :=
  let inS := s.bounds.contains
  let inT := t.bounds.contains
  if inS t.start && inS t.stop then ofEnds t.start t.stop
  else if inT s.start && inT s.stop then ofEnds s.start s.stop
  else if inS t.start && inT s.start then ofEnds t.start s.start
  else if inS t.start && inT s.stop then ofEnds t.start s.stop
  else if inS t.stop && inT s.start then ofEnds t.stop s.start
  else if inS t.stop && inT s.stop then ofEnds t.stop s.stop
  else .apart

/-- What two segments of positive length have in common. -/
def ofSegments (s t : Segment) : Crossing :=
  if !s.bounds.meets t.bounds then .apart
  else
    let sc := orientation s.start s.stop t.start
    let sd := orientation s.start s.stop t.stop
    if sc == sd && sc != .on then .apart
    else
      let ta := orientation t.start t.stop s.start
      let tb := orientation t.start t.stop s.stop
      if ta == tb && ta != .on then .apart
      else if sc == .on && sd == .on && ta == .on && tb == .on then collinear s t
      else if s.start == t.start || s.start == t.stop then .point s.start
      else if s.stop == t.start || s.stop == t.stop then .point s.stop
      else if sc == .on then .point t.start
      else if sd == .on then .point t.stop
      else if ta == .on then .point s.start
      else if tb == .on then .point s.stop
      else .point (properMeeting s t)

/-- The points at which either segment has to be divided. -/
def points : Crossing → List Point
  | .apart => []
  | .point p => [p]
  | .segment s => [s.start, s.stop]

end Crossing

/-- Do two segments, possibly of length zero, have a common point? -/
def Segment.meets (s t : Segment) : Bool :=
  match s.isTrivial, t.isTrivial with
  | true, true => s.start == t.start
  | true, false => onSegment t.start t.stop s.start
  | false, true => onSegment s.start s.stop t.start
  | false, false => Crossing.ofSegments s t != .apart

end Gridding
