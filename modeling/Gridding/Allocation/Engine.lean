import Gridding.Allocation.Basic
import Gridding.Grid.Locate
import Gridding.Pool.Striped
/-!
# Allocation of a shape to a grid

First every granule near the shape is clipped to it; the weights inside the clips add up to the
total, which normalizes all that follows. Then the clips are intersected with the cells near the
shape. A line or a point on shared edges overlaps every cell it touches; its overlaps are scaled
down so that together they are no more than the clip itself.

Both stages are striped over workers. `allocate` runs the stripes in order, `allocateUnder` under
any schedules.
-/

namespace Gridding

variable {ρ α ε : Type} [Region ρ α ε] [Zero α] [One α] [Mul α] [Div α] [LT α] [LE α]
  [DecidableLT α] [DecidableLE α] [BEq α] [Tally α]

namespace Engine

/-- The part of a granule inside the shape and its weight. -/
structure Clip (ρ α : Type) where
  granule : Granule ρ α
  contribution : α

/-- Clips one granule to the shape; an empty clip counts as none. -/
def clip (shape : Shape ρ) (dim : Int) (g : Granule ρ α) :
    Except (Fault ε) (Option (Clip ρ α)) := do
  let part ← Fault.meet g.footprint shape.footprint
  return if Region.isEmpty part then none
    else some ⟨⟨part, g.weight⟩, g.weight * Region.measure dim part⟩

/-- The positive overlaps of a cell with the clips, by the places of the clips. -/
def cellOverlaps (dim : Int) (cell : Cell ρ α) :
    List (Nat × Clip ρ α) → Except (Fault ε) (List (Nat × α))
  | [] => .ok []
  | (i, c) :: rest =>
    if Region.isNear c.granule.footprint cell.footprint then do
      let part ← Fault.meet c.granule.footprint cell.footprint
      let more ← cellOverlaps dim cell rest
      let overlap := Region.measure dim part
      return if !Region.isEmpty part && decide (0 < overlap) then (i, overlap) :: more else more
    else cellOverlaps dim cell rest

def indexed {β : Type} (bs : List β) : List (Nat × β) := (List.range bs.length).zip bs

/-- How much the overlaps of a clip count: all of an area, and of a line or a point no more than
makes up the clip. -/
def share (dim : Int) (clip : Clip ρ α) (overlaps : List α) : Except (Fault ε) α :=
  if dim ≥ 2 then .ok 1
  else do
    let counted ← Fault.add overlaps
    if 0 < counted then
      let share := Region.measure dim clip.granule.footprint / counted
      return if 1 < share then 1 else share
    else return 1

/-- The shares of all clips, `found` being the overlaps by cells. -/
def shares (dim : Int) (clips : List (Clip ρ α)) (found : List (Nat × List (Nat × α))) :
    Except (Fault ε) (List α) :=
  (indexed clips).mapM fun (i, c) =>
    share dim c (found.flatMap fun f => (f.2.filter fun o => o.1 = i).map (·.2))

/-- The weight of a cell: the weights of its overlaps over the total. -/
def cellWeight (clips : Array (Clip ρ α)) (share : Array α) (total : α)
    (overlaps : List (Nat × α)) : Except (Fault ε) α := do
  let sum ← Fault.add (overlaps.map fun (i, overlap) =>
    match clips[i]?, share[i]? with
    | some c, some s => c.granule.weight * overlap * s
    | _, _ => 0)
  return sum / total

/-- The cells with a positive weight, rows first. -/
def weighted (cells : List (Cell ρ α)) (clips : List (Clip ρ α)) (dim : Int) (total : α)
    (found : List (Nat × List (Nat × α))) : Except (Fault ε) (List (Cell ρ α)) := do
  let share := (← shares dim clips found).toArray
  let table := clips.toArray
  let known := cells.toArray
  let kept ← found.mapM fun (k, overlaps) => do
    let w ← cellWeight table share total overlaps
    return if 0 < w then known[k]?.map (·.withWeight w) else none
  return (kept.filterMap id).mergeSort Cell.precedes

/-- Clips the granules near the shape. -/
def clipWorker (shape : Shape ρ) (dim : Int) (near : Array (Granule ρ α)) :
    Striped.Worker (Fault ε) (List (Nat × Clip ρ α)) :=
  Striped.itemWorker fun j =>
    match near[j]? with
    | some g => clip shape dim g
    | none => .ok none

/-- Intersects the clips with the cells near the shape. -/
def cellWorker (dim : Int) (clips : List (Clip ρ α)) (cells : Array (Cell ρ α)) :
    Striped.Worker (Fault ε) (List (Nat × List (Nat × α))) :=
  let table := indexed clips
  Striped.itemWorker fun k =>
    match cells[k]? with
    | some cell => do
      let overlaps ← cellOverlaps dim cell table
      return if overlaps.isEmpty then none else some overlaps
    | none => .ok none

def nothing (shape : Shape ρ) (grid : Grid ρ α) : Allocation ρ α :=
  ⟨[], false, grid.nx, grid.ny, some shape, 0⟩

/-- Allocates a shape, each stage being run as told. A runner may fail for reasons of its own. -/
def allocateBy {φ : Type} (lift : Fault ε → φ)
    (runClips : Striped.Worker (Fault ε) (List (Nat × Clip ρ α)) → Int → Int →
      Except φ (List (List (Nat × Clip ρ α))))
    (runCells : Striped.Worker (Fault ε) (List (Nat × List (Nat × α))) → Int → Int →
      Except φ (List (List (Nat × List (Nat × α)))))
    (workers : Int) (shape : Shape ρ) (grid : Grid ρ α) (data : Dataset ρ α) :
    Except φ (Allocation ρ α) := do
  let covered ← (grid.covers shape.footprint).mapError lift
  let cells := grid.near shape.footprint
  let near := (data.near shape.footprint).map (·.2)
  let parts ← runClips (clipWorker shape data.dimension near.toArray) near.length workers
  let clips := (Striped.gather parts).map (·.2)
  let total ← (Fault.add (clips.map (·.contribution))).mapError lift
  if total == 0 then return nothing shape grid
  else
    let found ← runCells (cellWorker data.dimension clips cells.toArray) cells.length workers
    let kept ← (weighted cells clips data.dimension total (Striped.gather found)).mapError lift
    return ⟨kept, covered, grid.nx, grid.ny, some shape, total⟩

/-- Runs striped work under a schedule; a schedule that is impossible or not complete fails with no
reason. -/
def runUnder {β : Type} (events : List Striped.Event) (worker : Striped.Worker (Fault ε) β)
    (items workers : Int) : Except (Option (Fault ε)) (List β) :=
  match Striped.execute worker items workers events with
  | some outcome => outcome.mapError some
  | none => .error none

end Engine

open Engine

/-- Allocates a shape with the stripes of each stage run in order. -/
def allocate (workers : Int) (shape : Shape ρ) (grid : Grid ρ α) (data : Dataset ρ α) :
    Except (Fault ε) (Allocation ρ α) :=
  allocateBy id Striped.inOrder Striped.inOrder workers shape grid data

/-- Allocates a shape under a schedule for each stage. The second one is not looked at if nothing
lies inside the shape. -/
def allocateUnder (clipEvents cellEvents : List Striped.Event) (workers : Int) (shape : Shape ρ)
    (grid : Grid ρ α) (data : Dataset ρ α) : Except (Option (Fault ε)) (Allocation ρ α) :=
  allocateBy some (runUnder clipEvents) (runUnder cellEvents) workers shape grid data

end Gridding
