import Std.Data.HashMap
import Gridding.Geometry.Location
/-!
# Arrangements of edges

The edges of two operands are divided at all their common points and equal pieces are merged. An
edge runs from its lesser to its greater end and knows, for each operand, whether it is part of a
line and how often the operand's rings follow it, rings being turned so that the area lies on
their left. From these counts alone follows the number of rings around either side of an edge.
-/

namespace Gridding

/-- What one operand of an overlay consists of, points apart. -/
structure Linework where
  rings : List (List Point)
  lines : List (List Point)
  deriving Inhabited

/-- The part one operand has in an edge: how often its rings run along it, less how often they run
against it, and whether a line or a ring uses it at all. -/
structure Share where
  turns : Int
  isLine : Bool
  isRing : Bool
  deriving Inhabited, Repr

def Share.none : Share := ⟨0, false, false⟩

def Share.add (a b : Share) : Share :=
  ⟨a.turns + b.turns, a.isLine || b.isLine, a.isRing || b.isRing⟩

structure Edge where
  start : Point
  stop : Point
  first : Share
  second : Share
  deriving Inhabited, Repr

abbrev PointKey := UInt64 × UInt64

/-- Equal for points that differ at most in the sign of a zero. -/
def Point.key (p : Point) : PointKey := ((p.x + 0.0).toBits, (p.y + 0.0).toBits)

def Point.isBefore (p q : Point) : Bool := p.x < q.x || (p.x == q.x && p.y < q.y)

/-- The side of a closed path on which its area lies, by the sign of the exact area. -/
def ringSide (ring : List Point) : Side :=
  let low := Binary.commonExponent (ring.flatMap fun p => [p.x, p.y])
  let vs := ring.map fun p => (Binary.scaled low p.x, Binary.scaled low p.y)
  Side.ofSign ((List.zipWith (fun p q => p.1 * q.2 - q.1 * p.2) vs vs.tail).foldl (· + ·) 0)

/-- A polygon's rings, the shell with the area on its left and the holes with it on their right. -/
def orientedRings : List (List Vertex) → List (List Point)
  | [] => []
  | shell :: holes =>
    let turned (side : Side) (ring : List Vertex) : List Point :=
      let ps := ring.map (·.toPoint)
      if ringSide ps == side then ps else ps.reverse
    turned .left shell :: holes.map (turned .right)

namespace Arrangement

/-- The pairs of segments whose bounds are no further apart than `slack`. -/
private def nearPairs (slack : Float) (segments : Array Segment) : Array (Nat × Nat) := Id.run do
  let order := ((List.range segments.size).map fun i =>
    (i, segments[i]!.bounds)).toArray.qsort (fun a b => a.2.minX < b.2.minX)
  let mut found : Array (Nat × Nat) := #[]
  for k in [0:order.size] do
    let (i, bi) := order[k]!
    for l in [k + 1:order.size] do
      let (j, bj) := order[l]!
      if bj.minX > bi.maxX + slack then break
      if bi.minY ≤ bj.maxY + slack && bj.minY ≤ bi.maxY + slack then found := found.push (i, j)
  return found

/-- For every segment, the points at which the others divide it. -/
private def divisions (segments : Array Segment) : Array (List Point) :=
  (nearPairs 0.0 segments).foldl (fun cuts (i, j) =>
    let ps := (Crossing.ofSegments segments[i]! segments[j]!).points
    if ps.isEmpty then cuts else (cuts.modify i (ps ++ ·)).modify j (ps ++ ·))
    (segments.map fun _ => [])

/-- The pieces of a segment between the given points on it. -/
private def pieces (s : Segment) (cuts : List Point) : List Segment :=
  let dx := s.stop.x - s.start.x
  let dy := s.stop.y - s.start.y
  let along (p : Point) : Float :=
    if dx.abs ≥ dy.abs then (if dx < 0.0 then -p.x else p.x) else (if dy < 0.0 then -p.y else p.y)
  let sorted := cuts.mergeSort fun p q => along p ≤ along q
  (segmentsOf (s.start :: sorted ++ [s.stop])).filter fun t => !t.isTrivial

private def insertPiece (edges : Std.HashMap (PointKey × PointKey) Edge) (t : Segment)
    (inFirst : Bool) (isRing : Bool) : Std.HashMap (PointKey × PointKey) Edge :=
  let forward := t.start.isBefore t.stop
  let share : Share := ⟨if !isRing then 0 else if forward then 1 else -1, !isRing, isRing⟩
  let (a, b) := if forward then (t.start, t.stop) else (t.stop, t.start)
  let new : Edge := if inFirst then ⟨a, b, share, .none⟩ else ⟨a, b, .none, share⟩
  edges.alter (a.key, b.key) fun
    | some old => some ⟨old.start, old.stop, old.first.add new.first, old.second.add new.second⟩
    | none => some new

/-- A segment with the operand it belongs to and whether it is part of a ring. -/
private abbrev Tagged := Segment × Bool × Bool

private def tagged (l : Linework) (inFirst : Bool) : List Tagged :=
  let of (paths : List (List Point)) (isRing : Bool) : List Tagged :=
    paths.flatMap fun path =>
      ((segmentsOf path).filter fun s => !s.isTrivial).map fun s => (s, inFirst, isRing)
  of l.rings true ++ of l.lines false

private def tagAll (first second : Linework) : Array Tagged :=
  (tagged first true ++ tagged second false).toArray

/-- The merged pieces of segments that are divided at the given points. -/
private def merged (all : Array Tagged) (cuts : Array (List Point)) : Array Edge := Id.run do
  let mut found : Std.HashMap (PointKey × PointKey) Edge := ∅
  let mut keys : Array (PointKey × PointKey) := #[]
  for i in [0:all.size] do
    let (s, inFirst, isRing) := all[i]!
    for t in pieces s cuts[i]! do
      let key := if t.start.isBefore t.stop then (t.start.key, t.stop.key)
        else (t.stop.key, t.start.key)
      if !found.contains key then keys := keys.push key
      found := insertPiece found t inFirst isRing
  let known := found
  return keys.filterMap fun key => known[key]?

/-- The merged pieces of all edges of both operands. -/
def edges (first second : Linework) : Array Edge :=
  let all := tagAll first second
  merged all (divisions (all.map (·.1)))

/-- Do the edges have no common points but ends of both? Rounding may have moved a piece across
another one. Edges that `isFar` holds of are not looked at. -/
def isDivided (isFar : Edge → Bool) (edges : Array Edge) : Bool :=
  let segments := (edges.filter fun e => !isFar e).map fun e => (⟨e.start, e.stop⟩ : Segment)
  let isEnd (s : Segment) (p : Point) : Bool := p == s.start || p == s.stop
  (nearPairs 0.0 segments).all fun (i, j) =>
    (Crossing.ofSegments segments[i]! segments[j]!).points.all fun p =>
      isEnd segments[i]! p && isEnd segments[j]! p

/-- The known point nearest to `p` and nearer than `slack`, or `p` itself, which is then known. -/
private def snap (slack : Float) (known : Array Point) (p : Point) : Point × Array Point :=
  let nearest := known.foldl (fun (best : Option (Point × Float)) q =>
    let d := Segment.length ⟨p, q⟩
    match best with
    | some (_, least) => if d < least then some (q, d) else best
    | none => if d ≤ slack then some (q, d) else none) none
  match nearest with
  | some (q, _) => (q, known)
  | none => (p, known.push p)

private def snapPath (slack : Float) (known : Array Point) (path : List Point) :
    List Point × Array Point :=
  let (found, known) := path.foldl (fun (acc : List Point × Array Point) p =>
    let (q, known) := snap slack acc.2 p
    (q :: acc.1, known)) ([], known)
  (found.reverse, known)

private def snapPaths (slack : Float) (known : Array Point) (paths : List (List Point)) :
    List (List Point) × Array Point :=
  let (found, known) := paths.foldl (fun (acc : List (List Point) × Array Point) path =>
    let (path, known) := snapPath slack acc.2 path
    (path :: acc.1, known)) ([], known)
  (found.reverse, known)

/-- The ends of either segment that lie within `slack` of the inside of the other one. -/
private def nearEnds (slack : Float) (s t : Segment) : List Point :=
  let isNear (u : Segment) (p : Point) : Bool :=
    !(Segment.length ⟨p, u.start⟩ < slack) && !(Segment.length ⟨p, u.stop⟩ < slack) &&
      u.distanceTo p < slack
  ([s.start, s.stop].filter (isNear t)) ++ [t.start, t.stop].filter (isNear s)

/-- The merged pieces of all edges, points nearer than `slack` being taken for one. -/
def snappedEdges (slack : Float) (first second : Linework) : Array Edge := Id.run do
  let (firstRings, known) := snapPaths slack #[] first.rings
  let (firstLines, known) := snapPaths slack known first.lines
  let (secondRings, known) := snapPaths slack known second.rings
  let (secondLines, known) := snapPaths slack known second.lines
  let all := tagAll ⟨firstRings, firstLines⟩ ⟨secondRings, secondLines⟩
  let segments := all.map (·.1)
  let mut known := known
  let mut cuts : Array (List Point) := segments.map fun _ => []
  for (i, j) in nearPairs (2.0 * slack) segments do
    let s := segments[i]!
    let t := segments[j]!
    if let .point p := Crossing.ofSegments s t then
      let (q, more) := snap slack known p
      known := more
      cuts := (cuts.modify i (q :: ·)).modify j (q :: ·)
    let ends := nearEnds slack s t
    if !ends.isEmpty then cuts := (cuts.modify i (ends ++ ·)).modify j (ends ++ ·)
  return merged all cuts

/-- How many rings of each operand run around the left and around the right side of an edge. -/
structure Depths where
  left : Int
  right : Int
  deriving Repr

private def depths (edges : Array Edge) (index : Nat) (share : Edge → Share) : Depths := Id.run do
  let e := edges[index]!
  let m : Point := ⟨(e.start.x + e.stop.x) / 2.0, (e.start.y + e.stop.y) / 2.0⟩
  let own := (share e).turns
  let mut beyond : Int := 0
  if e.start.x == e.stop.x then
    -- a ray to the right; an edge it crosses upwards has `m` on its left
    for i in [0:edges.size] do
      let f := edges[i]!
      let turns := (share f).turns
      if turns != 0 && i != index && (f.start.y > m.y) != (f.stop.y > m.y) && m.x ≤ f.stop.x then
        let side := orientation f.start f.stop m
        if f.start.y < f.stop.y then
          if side == .left then beyond := beyond + turns
        else if side == .right then beyond := beyond - turns
    return ⟨beyond + own, beyond⟩
  else
    -- a ray upwards; an edge it crosses has `m` on its right
    for i in [0:edges.size] do
      let f := edges[i]!
      let turns := (share f).turns
      if turns != 0 && i != index && (f.start.x > m.x) != (f.stop.x > m.x) then
        if orientation f.start f.stop m == .right then beyond := beyond - turns
    return ⟨beyond, beyond - own⟩

/-- An edge with what lies on either side of it. -/
structure Labelled where
  edge : Edge
  firstLeft : Bool
  firstRight : Bool
  secondLeft : Bool
  secondRight : Bool
  deriving Inhabited

def label (edges : Array Edge) : List Labelled :=
  (List.range edges.size).map fun i =>
    let a := depths edges i (·.first)
    let b := depths edges i (·.second)
    ⟨edges[i]!, a.left > 0, a.right > 0, b.left > 0, b.right > 0⟩

end Arrangement

end Gridding
