import Gridding.Grid.Basic
/-!
# Shapes, granules and allocations

A shape is a source location with its key. A dataset is a list of weighted granules, all measured
in one dimension; a weight is a density, so that the weight inside a part of a granule is the weight
times the measure of the part. An allocation lists the cells that get a share of a shape.
-/

namespace Gridding

structure Shape (ρ : Type) where
  key : String
  footprint : ρ
  planarBounds : Option Bounds

structure Granule (ρ α : Type) where
  footprint : ρ
  weight : α

structure Dataset (ρ α : Type) where
  granules : List (Granule ρ α)
  dimension : Int

structure Allocation (ρ α : Type) where
  cells : List (Cell ρ α)
  covered : Bool
  nx : Int
  ny : Int
  shape : Option (Shape ρ)
  totalWeight : α

namespace Shape

def map {ρ σ : Type} (f : ρ → σ) (s : Shape ρ) : Shape σ := ⟨s.key, f s.footprint, s.planarBounds⟩

def describe {ρ : Type} (s : Shape ρ) : String := "InputShape(" ++ Text.quoted s.key ++ ")"

end Shape

namespace Dataset

variable {ρ α ε : Type}

/-- The greatest dimension of the regions, or that of areas if there is none. -/
def greatestDimension [Region ρ α ε] (rs : List ρ) : Int :=
  match rs.map Region.dimension with
  | [] => 2
  | d :: ds => ds.foldl max d

/-- A dataset of granules that are measured in the given or else in their greatest dimension. -/
def ofGranules [Region ρ α ε] (granules : List (Granule ρ α)) (dimension : Option Int) :
    Dataset ρ α :=
  ⟨granules, dimension.getD (greatestDimension (granules.map (·.footprint)))⟩

/-- The granules that can meet a region, with their places in the dataset. -/
def near [Region ρ α ε] (d : Dataset ρ α) (r : ρ) : List (Nat × Granule ρ α) :=
  ((List.range d.granules.length).zip d.granules).filter fun g => Region.isNear g.2.footprint r

end Dataset

namespace Allocation

variable {ρ α : Type}

def map {σ : Type} (f : ρ → σ) (a : Allocation ρ α) : Allocation σ α :=
  ⟨a.cells.map (·.map f), a.covered, a.nx, a.ny, a.shape.map (·.map f), a.totalWeight⟩

def isEmpty (a : Allocation ρ α) : Bool := a.cells.isEmpty

def weightAt [Tally α] (a : Allocation ρ α) (row col : Int) : Except SumError α :=
  Tally.sum ((a.cells.filter fun c => c.row = row && c.col = col).map (·.weight))

def total [Tally α] (a : Allocation ρ α) : Except SumError α := Tally.sum (a.cells.map (·.weight))

end Allocation

end Gridding
