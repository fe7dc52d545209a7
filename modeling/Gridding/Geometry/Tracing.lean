import Gridding.Geometry.Arrangement
/-!
# Polygons from directed edges

Directed edges with the area on their left are joined to polygons. From the end of an edge the
boundary goes on with the first edge clockwise from the one it came by, so that a walk bounds one
connected piece of area; a walk through a vertex it has met before is split there. Rings with the
area inside are shells, the others are holes of the smallest shell around them.
-/

namespace Gridding.Tracing

/-- The order in which a clockwise turn about `v` that starts at `u` meets other points. -/
private def rank (v u t : Point) : Nat :=
  match orientation v u t with
  | .right => 0
  | .left => 2
  | .on =>
    let dot := (u.x - v.x) * (t.x - v.x) + (u.y - v.y) * (t.y - v.y)
    if dot < 0.0 then 1 else 3

private def isSooner (v u s t : Point) : Bool :=
  let rs := rank v u s
  let rt := rank v u t
  if rs != rt then rs < rt else orientation v s t == .right

/-- The first of the points that a clockwise turn about `v` from `u` meets. -/
private def firstClockwise (v u : Point) : List Point → Option Point
  | [] => none
  | t :: ts => some (ts.foldl (fun best s => if isSooner v u s best then s else best) t)

abbrev Exits := Std.HashMap PointKey (List Point)

private def exitsOf (edges : List Segment) : Exits :=
  edges.foldl (fun m s => m.alter s.start.key fun
    | some ts => some (s.stop :: ts)
    | none => some [s.stop]) ∅

/-- Follows the boundary from the edge `u v` back to its start, or until the fuel is spent. -/
private def walk (exits : Exits) (home next : Point) : Nat → Point → Point → List Point
  | 0, _, v => [v]
  | fuel + 1, u, v =>
    match firstClockwise v u (exits.getD v.key []) with
    | none => [v]
    | some w => if v == home && w == next then [v] else v :: walk exits home next fuel v w

/-- Cuts a closed walk into rings that meet no vertex twice. `path` is the open part, last vertex
first. -/
private def splitWalk : List Point → List Point → List (List Point)
  | path, [] => if path.length > 3 then [path] else []
  | path, p :: rest =>
    if path.contains p then
      let loop := path.takeWhile (· != p)
      let left := path.dropWhile (· != p)
      let ring := p :: loop ++ [p]
      (if ring.length > 3 then [ring.reverse] else []) ++ splitWalk left rest
    else splitWalk (p :: path) rest

/-- All rings that the directed edges form, if every walk comes back to its start. -/
def rings? (edges : List Segment) : Option (List (List Point)) := Id.run do
  let exits := exitsOf edges
  let fuel := edges.length + 1
  let mut used : Std.HashMap (PointKey × PointKey) Unit := ∅
  let mut found : List (List Point) := []
  for s in edges do
    if !used.contains (s.start.key, s.stop.key) then
      let path := s.start :: walk exits s.start s.stop fuel s.start s.stop
      for t in segmentsOf path do
        used := used.insert (t.start.key, t.stop.key) ()
      if path.getLast? != some s.start then return none
      found := splitWalk [] path ++ found
  return some found.reverse

/-- Is every vertex of `ring` in or on `shell`, and one of them inside? -/
private def isWithin (ring shell : List Point) : Bool :=
  let segments := segmentsOf shell
  let places := ring.map (locateInRing segments)
  !places.contains .outside && places.contains .inside

private def ringExtent (ring : List Point) : Float :=
  match Bounds.ofPoints ring with
  | some b => (b.maxX - b.minX) * (b.maxY - b.minY)
  | none => 0.0

/-- The polygons that the directed edges bound, each as its shell followed by its holes, if every
walk closes and every hole has a shell. -/
def polygons? (edges : List Segment) : Option (List (List (List Point))) := do
  let rs ← rings? edges
  let shells := rs.filter fun r => ringSide r == .left
  let holes := rs.filter fun r => ringSide r == .right
  let owner (h : List Point) : Option Nat :=
    let around := (List.range shells.length).filter fun i => isWithin h (shells.getD i [])
    (around.foldl (fun best i =>
      let size := ringExtent (shells.getD i [])
      match best with
      | some (_, least) => if size < least then some (i, size) else best
      | none => some (i, size)) (none : Option (Nat × Float))).map (·.1)
  let owned ← holes.mapM fun h => (owner h).map fun i => (i, h)
  return (List.range shells.length).map fun i =>
    shells.getD i [] :: (owned.filter fun oh => oh.1 == i).map (·.2)

end Gridding.Tracing
