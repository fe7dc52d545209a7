import Gridding.Grid.Basic
import Gridding.Sphere.Footprint
/-!
# Regular grids

A lattice has equal cells in rows and columns from an origin. `Lattice.corner` gives the corners in
the grid's own coordinates, and `ringAround` the closed ring of a cell for any corners, so that
neighbouring cells share theirs. Cells are listed row by row.
-/

namespace Gridding

structure Lattice (α : Type) where
  columns : Nat
  rows : Nat
  spacing : Spacing α

namespace Lattice

variable {α β : Type}

section Corners

variable [Add α] [Mul α] [Tally α]

def corner (l : Lattice α) (row col : Nat) : α × α :=
  (l.spacing.x0 + Tally.ratio (col : Int) 1 * l.spacing.dx,
   l.spacing.y0 + Tally.ratio (row : Int) 1 * l.spacing.dy)

end Corners

/-- The closed ring around a cell, from its first corner along the row. -/
def ringAround (corner : Nat → Nat → β) (row col : Nat) : List β :=
  [corner row col, corner row (col + 1), corner (row + 1) (col + 1), corner (row + 1) col,
   corner row col]

/-- All places of `rows` rows and `columns` columns, row by row. -/
def placesOf (rows columns : Nat) : List (Nat × Nat) :=
  (List.range rows).flatMap fun r => (List.range columns).map fun c => (r, c)

/-- The places of the cells. -/
def places (l : Lattice α) : List (Nat × Nat) := placesOf l.rows l.columns

/-- The places of the corners. -/
def cornerPlaces (l : Lattice α) : List (Nat × Nat) := placesOf (l.rows + 1) (l.columns + 1)

/-- All corners, row by row. -/
def corners [Add α] [Mul α] [Tally α] (l : Lattice α) : List (α × α) :=
  l.cornerPlaces.map fun (r, c) => l.corner r c

/-- The entry for a corner in a table of all of them. -/
def entry [Inhabited β] (l : Lattice α) (table : Array β) (row col : Nat) : β :=
  table.getD (row * (l.columns + 1) + col) default

/-- The cells, given what becomes of a polygon ring and where its corners are. -/
def cells {ρ γ : Type} [Zero α] (l : Lattice α) (polygon : List β → Geometry)
    (footprint : List γ → ρ) (planar : Nat → Nat → β) (image : Nat → Nat → γ) :
    List (Cell ρ α) :=
  l.places.map fun (r, c) =>
    ⟨polygon (ringAround planar r c), footprint (ringAround image r c), r, c, 0, none⟩

end Lattice

namespace Grid

/-- The regular grid of `nx` columns and `ny` rows, given what becomes of a polygon ring and how all
corners together are brought to longitude and latitude. -/
def regularBy {ρ α γ ε : Type} [Region ρ α ε] [Zero α] [Add α] [Mul α] [Tally α] [Inhabited α]
    [Inhabited γ] (polygon : List (α × α) → Geometry) (footprint : List γ → ρ)
    (project : List (α × α) → Except ProjectionError (List γ)) (name : String) (nx ny : Int)
    (spacing : Spacing α) (system : DeclaredSystem) : Except (GridError ε) (Grid ρ α) := do
  let lattice : Lattice α := ⟨nx.toNat, ny.toNat, spacing⟩
  let corners := if nx < 0 || ny < 0 then [] else lattice.corners
  let images ← (project corners).mapError .projection
  if nx < 0 || ny < 0 then .error .negativeSize
  else
    let cells := lattice.cells polygon footprint (lattice.entry corners.toArray)
      (lattice.entry images.toArray)
    ofCells name cells nx ny system (some spacing) false

private def polygonOf (ring : List Point) : Geometry := .polygon [ring.map Point.toVertex]

private def toPoint (p : Float × Float) : Point := ⟨p.1, p.2⟩

/-- The regular grid of `nx` columns and `ny` rows in a declared system. -/
def regular (name : String) (nx ny : Int) (spacing : Spacing Float) (system : DeclaredSystem) :
    Except (GridError GeometryError) (Grid Footprint Float) := do
  let isLonLat ← (system.agrees (.known .lonLat)).mapError .projection
  let project (corners : List (Float × Float)) : Except ProjectionError (List Point) :=
    match system, isLonLat with
    | .known s, false => s.convert .lonLat (corners.map toPoint)
    | _, _ => .ok (corners.map toPoint)
  regularBy (fun ring => polygonOf (ring.map toPoint)) (fun ring => ⟨polygonOf ring⟩) project name
    nx ny spacing system

end Grid

end Gridding
