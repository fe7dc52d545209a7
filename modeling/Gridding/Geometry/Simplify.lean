import Gridding.Geometry.Location
/-!
# Simplification of lines that keeps their topology

A line is replaced by fewer of its own vertices. A section is flattened if all its vertices lie
within the tolerance of the segment between its ends, if enough vertices remain, if the new segment
meets no other one inside and if no other line would change sides; otherwise it is split at its
furthest vertex. A ring may at last lose its endpoint under the same conditions.
-/

namespace Gridding.Simplify

/-- A line to be simplified and the least number of vertices it must keep. -/
structure Path where
  vertices : Array Vertex
  minimum : Nat
  isRing : Bool
  deriving Inhabited

/-- A segment of the given lines, known by its line and its place in it. -/
structure Piece where
  path : Nat
  index : Nat
  segment : Segment
  deriving Inhabited

/-- The segments of the given lines that are still in place and those put in for others. -/
structure Front where
  given : List Piece
  flattened : List Segment
  deriving Inhabited

def Path.at (p : Path) (i : Nat) : Point := (p.vertices.getD i default).toPoint

/-- Are two segments equal, or do they meet in a point that is not an endpoint of both? -/
private def interferes (s t : Segment) : Bool :=
  let isEnd (u : Segment) (p : Point) : Bool := u.start == p || u.stop == p
  let inner (p : Point) : Bool := !(isEnd s p && isEnd t p)
  if isEnd s t.start && isEnd s t.stop && isEnd t s.start && isEnd t s.stop then true
  else if s.isTrivial || t.isTrivial then false
  else (Crossing.ofSegments s t).points.any inner

/-- The vertex between `i` and `j` furthest from the segment between them, and its distance. -/
private def furthest (p : Path) (i j : Nat) : Nat × Float :=
  let s : Segment := ⟨p.at i, p.at j⟩
  (List.range (j - i - 1)).foldl (fun best k =>
    let d := s.distanceTo (p.at (i + 1 + k))
    if d > best.2 then (i + 1 + k, d) else best) (i, -1.0)

/-- Would a point of another line come to lie on the other side if `section` became `s`? -/
private def jumps (others : List Path) (old : List Segment) (s : Segment) : Bool :=
  match Bounds.ofPoints (old.flatMap fun t => [t.start, t.stop]) with
  | none => false
  | some b => others.any fun o =>
    let p := o.at 1
    b.contains p && isBehindOdd old p != isBehindOdd [s] p

private def othersThan (paths : Array Path) (path : Nat) : List Path :=
  ((List.range paths.size).filter (· != path)).map fun i => paths.getD i default

private def canFlatten (paths : Array Path) (front : Front) (path i j : Nat) : Bool :=
  let p := paths.getD path default
  let s : Segment := ⟨p.at i, p.at j⟩
  let own (r : Piece) : Bool := r.path = path && i ≤ r.index && r.index < j
  let old := (List.range (j - i)).map fun k => (⟨p.at (i + k), p.at (i + k + 1)⟩ : Segment)
  !front.flattened.any (interferes · s) &&
    !(front.given.any fun r => !own r && interferes r.segment s) &&
    !jumps (othersThan paths path) old s

/-- A line in progress: the kept vertices so far, the first one apart, and the front. -/
structure Progress where
  kept : Array Nat
  front : Front

/-- Simplifies the section from vertex `i` to vertex `j`, at the given depth of splitting. The fuel
bounds the depth. -/
private def simplifySection (paths : Array Path) (path : Nat) (tolerance : Float) :
    Nat → Nat → Nat → Nat → Progress → Progress
  | 0, _, _, j, state => { state with kept := state.kept.push j }
  | fuel + 1, depth, i, j, state =>
    if i + 1 ≥ j then { state with kept := state.kept.push j }
    else
      let p := paths.getD path default
      let count := if state.kept.isEmpty then 0 else state.kept.size + 1
      let scarce := count < p.minimum && depth + 2 < p.minimum
      let (k, d) := furthest p i j
      if !scarce && !(d > tolerance) && canFlatten paths state.front path i j then
        let own (r : Piece) : Bool := r.path = path && i ≤ r.index && r.index < j
        ⟨state.kept.push j, ⟨state.front.given.filter fun r => !own r,
          ⟨p.at i, p.at j⟩ :: state.front.flattened⟩⟩
      else
        simplifySection paths path tolerance fuel (depth + 1) k j
          (simplifySection paths path tolerance fuel (depth + 1) i k state)

/-- May the endpoint between the segments `last` and `first` of a ring be dropped? -/
private def canDropEndpoint (paths : Array Path) (front : Front) (path : Nat) (tolerance : Float)
    (first last : Segment) : Bool :=
  let s : Segment := ⟨last.start, first.stop⟩
  let straight (p : Point) : Bool := orientation s.start s.stop p == .on
  s.distanceTo first.start ≤ tolerance &&
    ((straight first.start && straight first.stop && straight last.stop) ||
      (!front.flattened.any (interferes · s) &&
        !(front.given.any fun r => interferes r.segment s) &&
        !jumps (othersThan paths path) [first, last] s))

/-- Simplifies one line and returns the places of its kept vertices. -/
private def simplifyPath (paths : Array Path) (path : Nat) (tolerance : Float) (front : Front) :
    List Nat × Front :=
  let p := paths.getD path default
  let n := p.vertices.size
  let done := simplifySection paths path tolerance n 0 0 (n - 1) ⟨#[], front⟩
  let kept := 0 :: done.kept.toList
  let front := done.front
  match kept, kept.reverse with
  | z :: a :: _, _ :: y :: _ =>
    let first : Segment := ⟨p.at z, p.at a⟩
    let last : Segment := ⟨p.at y, p.at z⟩
    if p.isRing && kept.length > p.minimum &&
        canDropEndpoint paths front path tolerance first last then
      let differs (s : Segment) : Bool := s != first && s != last
      (y :: (kept.drop 1).dropLast,
        ⟨front.given.filter fun r => !(r.path = path && !differs r.segment),
          ⟨last.start, first.stop⟩ :: front.flattened.filter differs⟩)
    else (kept, front)
  | _, _ => (kept, front)

/-- The lines and rings of a geometry, in order. -/
private def pathsOf (g : Geometry) : List Path :=
  let closed (vs : List Vertex) : Bool :=
    match vs.head?, vs.getLast? with
    | some a, some b => a.toPoint == b.toPoint
    | _, _ => false
  (g.atoms.flatMap fun a =>
    match a with
    | .lineString vs => [⟨vs.toArray, if closed vs then 4 else 2, false⟩]
    | .linearRing vs => [⟨vs.toArray, 4, true⟩]
    | .polygon rings => rings.map fun r => (⟨r.toArray, 4, true⟩ : Path)
    | _ => ([] : List Path)).filter fun p => !p.vertices.isEmpty

private def piecesOf (paths : Array Path) : List Piece :=
  (List.range paths.size).flatMap fun i =>
    let p := paths.getD i default
    (List.range (p.vertices.size - 1)).map fun k => ⟨i, k, ⟨p.at k, p.at (k + 1)⟩⟩

/-- Puts the simplified lines back in the places of the given ones, in order. -/
private def takeRun (runs : List (List Vertex)) (old : List Vertex) :
    List Vertex × List (List Vertex) :=
  if old.isEmpty then ([], runs) else (runs.headD old, runs.tail)

/-- A collection of the parts that are not empty. Unless it is mixed, one part needs none. -/
private def gathered (family : Family) (parts : List Geometry) : Geometry :=
  match family, parts.filter (!·.isEmpty) with
  | .mixed, gs => .collection .mixed gs
  | _, [] => .collection .mixed []
  | _, [g] => g
  | _, gs => .collection family gs

mutual

private def rebuild (runs : List (List Vertex)) : Geometry → Geometry × List (List Vertex)
  | .lineString vs => let (r, rest) := takeRun runs vs; (.lineString r, rest)
  | .linearRing vs => let (r, rest) := takeRun runs vs; (.linearRing r, rest)
  | .polygon rings =>
    let (rs, rest) := rings.foldl (fun (acc : List (List Vertex) × List (List Vertex)) ring =>
      let (r, rest) := takeRun acc.2 ring
      (r :: acc.1, rest)) ([], runs)
    (.polygon rs.reverse, rest)
  | .point v => (.point v, runs)
  | .collection family ps =>
    let (gs, rest) := rebuildList runs ps
    (gathered family gs, rest)

private def rebuildList (runs : List (List Vertex)) :
    List Geometry → List Geometry × List (List Vertex)
  | [] => ([], runs)
  | g :: gs =>
    let (h, rest) := rebuild runs g
    let (hs, rest) := rebuildList rest gs
    (h :: hs, rest)

end

end Gridding.Simplify

namespace Gridding

/-- The geometry with its lines and rings simplified; a negative tolerance is refused. -/
def Geometry.simplify? (tolerance : Float) (g : Geometry) : Option Geometry :=
  if tolerance < 0.0 then none
  else if g.isEmpty then some g
  else
    let paths := (Simplify.pathsOf g).toArray
    let front : Simplify.Front := ⟨Simplify.piecesOf paths, []⟩
    let runs := ((List.range paths.size).foldl (fun (acc : List (List Vertex) × Simplify.Front) i =>
      let (kept, front) := Simplify.simplifyPath paths i tolerance acc.2
      let vs := (paths.getD i default).vertices
      (kept.map (fun k => vs.getD k default) :: acc.1, front)) ([], front)).1.reverse
    some (Simplify.rebuild runs g).1

end Gridding
