import Gridding.Geometry.Tracing
/-!
# Intersection and union

`meet` and `join` compute the intersection and the union of geometries from the arrangement of
their edges. An edge with the result on one side only bounds its area. The intersection of areas
that merely touch is made of the edges or points they share, and such parts are also kept beside
an area.
-/

namespace Gridding

/-- The parts of a result by dimension. -/
structure Pieces where
  polygons : List (List (List Point))
  lines : List (List Point)
  points : List Point
  deriving Inhabited

namespace Pieces

def none : Pieces := ⟨[], [], []⟩

def append (a b : Pieces) : Pieces :=
  ⟨a.polygons ++ b.polygons, a.lines ++ b.lines, a.points ++ b.points⟩

private def family (f : Family) : List Geometry → Geometry
  | [g] => g
  | gs => .collection f gs

def toGeometry (p : Pieces) : Geometry :=
  let vs (ps : List Point) : List Vertex := ps.map Point.toVertex
  let polygons := p.polygons.map fun rings => Geometry.polygon (rings.map vs)
  let lines := p.lines.map fun l => Geometry.lineString (vs l)
  let points := p.points.map fun q => Geometry.point (some q.toVertex)
  match polygons, lines, points with
  | [], [], [] => .empty
  | ps, [], [] => family .polygons ps
  | [], ls, [] => family .lines ls
  | [], [], qs => family .points qs
  | ps, ls, qs => .collection .mixed (ps ++ ls ++ qs)

private def ofAtom : Geometry → Pieces
  | .point v => ⟨[], [], v.toList.map (·.toPoint)⟩
  | .lineString vs => ⟨[], [vs.map (·.toPoint)], []⟩
  | .linearRing vs => ⟨[], [vs.map (·.toPoint)], []⟩
  | .polygon rings => ⟨[rings.map (·.map (·.toPoint))], [], []⟩
  | .collection _ _ => none

/-- The atoms of a geometry by dimension, polygon rings with their area on the proper side. -/
def ofGeometry (g : Geometry) : Pieces :=
  (g.atoms.filter fun a => !a.isEmpty).foldl (fun p a =>
    match a with
    | .polygon rings => p.append ⟨[orientedRings rings], [], []⟩
    | a => p.append (ofAtom a)) none

def linework (p : Pieces) : Linework := ⟨p.polygons.flatten, p.lines⟩

end Pieces

namespace Overlay

open Arrangement

/-- Does the operand use the edge as a line? A ring that runs along an edge both ways does, where
it bounds no area. -/
private def usedAsLine (s : Share) (left right : Bool) : Bool :=
  s.isLine || (s.isRing && s.turns = 0 && !left && !right)

/-- Directs an edge so that the result is on its left, if it is on one side only. -/
private def directed (e : Edge) (left right : Bool) : Option Segment :=
  match left, right with
  | true, false => some ⟨e.start, e.stop⟩
  | false, true => some ⟨e.stop, e.start⟩
  | _, _ => none

private def distinctPoints (ps : List Point) : List Point :=
  (ps.foldl (fun (acc : Std.HashMap PointKey Unit × List Point) p =>
    if acc.1.contains p.key then acc else (acc.1.insert p.key (), p :: acc.2)) (∅, [])).2.reverse

/-- What a vertex of the arrangement has to do with the operands and the result. -/
private structure Incidence where
  first : Bool
  second : Bool
  result : Bool

private def commonVertices (ls : List (Labelled × Bool)) : List Point := Id.run do
  let mut seen : Std.HashMap PointKey Incidence := ∅
  for (l, inResult) in ls do
    let e := l.edge
    let new : Incidence := ⟨e.first.turns != 0 || e.first.isLine,
      e.second.turns != 0 || e.second.isLine, inResult⟩
    for p in [e.start, e.stop] do
      seen := seen.alter p.key fun
        | some old => some ⟨old.first || new.first, old.second || new.second,
            old.result || new.result⟩
        | none => some new
  let known := seen
  return distinctPoints (ls.flatMap fun l =>
    [l.1.edge.start, l.1.edge.stop].filter fun p =>
      match known[p.key]? with
      | some i => i.first && i.second && !i.result
      | none => false)

/-- The intersection of the areas and the lines that labelled edges bound. -/
private def meetEdges (labelled : List Labelled) : Option Pieces := do
  let boundary (l : Labelled) : Option Segment :=
    directed l.edge (l.firstLeft && l.secondLeft) (l.firstRight && l.secondRight)
  let isLine (l : Labelled) : Bool :=
    let lineA := usedAsLine l.edge.first l.firstLeft l.firstRight
    let lineB := usedAsLine l.edge.second l.secondLeft l.secondRight
    let inA := lineA || l.firstLeft || l.firstRight
    let inB := lineB || l.secondLeft || l.secondRight
    if (boundary l).isSome then false
    else if lineA || lineB then inA && inB
    else l.firstLeft != l.firstRight && l.secondLeft != l.secondRight &&
      l.firstLeft != l.secondLeft
  let polygons ← Tracing.polygons? (labelled.filterMap boundary)
  let lines := labelled.filter isLine
  return ⟨polygons, lines.map fun l => [l.edge.start, l.edge.stop],
    commonVertices (labelled.map fun l => (l, (boundary l).isSome || isLine l))⟩

/-- The areas that labelled edges bound, and the lines outside them. -/
private def dissolveEdges (labelled : List Labelled) : Option Pieces := do
  let polygons ← Tracing.polygons?
    (labelled.filterMap fun l => directed l.edge l.firstLeft l.firstRight)
  let lines := labelled.filter fun l => l.edge.first.isLine && !l.firstLeft && !l.firstRight
  return ⟨polygons, lines.map fun l => [l.edge.start, l.edge.stop], []⟩

def magnitude (l : Linework) : Float :=
  (l.rings ++ l.lines).flatten.foldl (fun m p => max m (max p.x.abs p.y.abs)) 0.0

/-- The distances at which points are taken for one, in turn, where edges cannot be divided
otherwise. -/
def slacks (a b : Linework) : List Float :=
  let least := max (magnitude a) (magnitude b) / 1e12
  [1.0, 10.0, 100.0, 1000.0, 10000.0].map (least * ·)

/-- Computes a result from the edges as they are, or, if rounding spoils them, with points taken for
one that are as little apart as will do. -/
private def overlay (isFar : Edge → Bool) (compute : List Labelled → Option Pieces)
    (a b : Linework) : Pieces :=
  let plain := edges a b
  let exact := if isDivided isFar plain then compute (label plain) else none
  (exact.or ((slacks a b).findSome? fun d => compute (label (snappedEdges d a b)))).getD .none

private def boundsOf (l : Linework) : Option Bounds := Bounds.ofPoints (l.rings ++ l.lines).flatten

/-- The intersection of two sets of edges and the areas they bound. -/
private def meetLinework (a b : Linework) : Pieces :=
  let isFar (e : Edge) : Bool :=
    let near := (Bounds.ofPoint e.start).extend e.stop
    match boundsOf a, boundsOf b with
    | some ba, some bb => !(near.meets ba && near.meets bb)
    | _, _ => true
  overlay isFar meetEdges a b

/-- Dissolves all parts into those of their own dimension: areas are merged, and so are lines and
points. -/
private def merge (p : Pieces) : Pieces :=
  let united (l : Linework) : Pieces := overlay (fun _ => false) dissolveEdges l ⟨[], []⟩
  ⟨(united ⟨p.polygons.flatten, []⟩).polygons, (united ⟨[], p.lines⟩).lines, distinctPoints p.points⟩

/-- Dissolves all parts into each other: areas are merged, lines are kept outside areas and points
outside both. -/
private def dissolve (p : Pieces) : Pieces :=
  let q := overlay (fun _ => false) dissolveEdges p.linework ⟨[], []⟩
  ⟨q.polygons, q.lines, (distinctPoints p.points).filter fun r => !q.toGeometry.touches r⟩

private def meetPoints (ps : List Point) (g : Geometry) : Pieces :=
  ⟨[], [], (distinctPoints ps).filter g.touches⟩

/-- The intersection, part by part of either operand. -/
private def meetPieces (a b : Pieces) : Pieces :=
  let polygonsOf (p : Pieces) : Linework := ⟨p.polygons.flatten, []⟩
  let linesOf (p : Pieces) : Linework := ⟨[], p.lines⟩
  let lineworks (p : Pieces) : List Linework :=
    (if p.polygons.isEmpty then [] else [polygonsOf p]) ++
      (if p.lines.isEmpty then [] else [linesOf p])
  let crossed := (lineworks a).flatMap fun la => (lineworks b).map fun lb => meetLinework la lb
  let fromA := meetPoints a.points b.toGeometry
  let fromB := meetPoints b.points (⟨a.polygons, a.lines, []⟩ : Pieces).toGeometry
  (crossed ++ [fromA, fromB]).foldl Pieces.append .none

end Overlay

namespace Geometry

/-- Do the bounds of two geometries that are not empty meet? -/
def isNear (a b : Geometry) : Bool :=
  match a.bounds?, b.bounds? with
  | some ba, some bb => ba.meets bb
  | _, _ => false

private def isMixed : Geometry → Bool
  | .collection .mixed _ => true
  | _ => false

/-- The intersection. Where a mixed collection takes part, parts of either operand that overlap are
merged first, and what results is dissolved. -/
def meet (a b : Geometry) : Geometry :=
  if !a.isNear b then .empty
  else
    let pa := Pieces.ofGeometry a
    let pb := Pieces.ofGeometry b
    if a.isMixed || b.isMixed then
      (Overlay.dissolve (Overlay.meetPieces (Overlay.merge pa) (Overlay.merge pb))).toGeometry
    else (Overlay.meetPieces pa pb).toGeometry

def join (gs : List Geometry) : Geometry :=
  (Overlay.dissolve ((gs.map Pieces.ofGeometry).foldl Pieces.append .none)).toGeometry

end Geometry

end Gridding
