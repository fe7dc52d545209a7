import Gridding.Allocation.Basic
import Gridding.Projection.System
import Gridding.Sphere.Footprint
import Gridding.Surrogate.Filter
import Gridding.Surrogate.Weights
import Gridding.Table.Basic
/-!
# Granules of a table

Granules are made of the rows that pass the filter, are not empty and, if asked for, meet a given
region. The weight of a row is turned into a density by its own area or length; rows of points give
one granule for each point.
-/

namespace Gridding

inductive LayerError where
  | filter (e : FilterError)
  | projection (e : ProjectionError)
  | weights (e : WeightError)
  | geometry (e : GeometryError)
  deriving DecidableEq, Repr

namespace Dataset

variable {ρ α ε : Type} [Region ρ α ε] [Zero α] [Div α] [LE α] [DecidableLE α] [BEq α] [Tally α]

/-- The granules of one row in a dataset of the given dimension. -/
def rowGranules (dimension : Int) (asDensity : Bool) (row : ρ × α) : List (Granule ρ α) :=
  if Region.isEmpty row.1 || !Tally.isFinite row.2 || row.2 == 0 then []
  else if dimension = 0 then (Region.parts row.1).map fun p => ⟨p, row.2⟩
  else if asDensity && dimension > 0 then
    let size := Region.measure dimension row.1
    if size ≤ 0 then [] else [⟨row.1, row.2 / size⟩]
  else [⟨row.1, row.2⟩]

/-- The dataset of weighted rows, measured in their greatest dimension. -/
def ofRows (asDensity : Bool) (rows : List (ρ × α)) : Dataset ρ α :=
  let dimension := greatestDimension (rows.map (·.1))
  ⟨rows.flatMap (rowGranules dimension asDensity), dimension⟩

end Dataset

namespace Table

variable {ρ α ε : Type}

/-- What is asked of a table to make granules of it. -/
structure Request (ρ α : Type) where
  weightColumns : List String
  weightFactors : List α
  filter : Option RowFilter
  clipTo : Option ρ
  asDensity : Bool

def filtered (t : Table ρ) : Option RowFilter → Except FilterError (Table ρ)
  | none => .ok t
  | some f => (f.rows t.columns t.columnNames).map t.select

variable [Region ρ α ε]

/-- The rows that granules are made of, in longitude and latitude. -/
def used (project : Table ρ → Except ProjectionError (Table ρ)) (t : Table ρ) (r : Request ρ α) :
    Except LayerError (Table ρ) := do
  let t ← (t.filtered r.filter).mapError .filter
  let t ← (project t).mapError .projection
  match r.clipTo with
  | some region => return t.present.meeting region
  | none => return t.present

variable [Zero α] [One α] [Add α] [Mul α] [Amount α]

/-- The used rows with their weights. -/
def weightedRows (project : Table ρ → Except ProjectionError (Table ρ))
    (simplify : ρ → Except GeometryError ρ) (t : Table ρ) (r : Request ρ α) :
    Except LayerError (List (ρ × α)) := do
  let t ← t.used project r
  let weights ← (rowWeights t.columns t.size r.weightColumns r.weightFactors).mapError .weights
  let regions ← ((t.regions.filterMap id).mapM simplify).mapError .geometry
  return regions.zip weights

variable [Div α] [LE α] [DecidableLE α] [BEq α] [Tally α]

def dataset (project : Table ρ → Except ProjectionError (Table ρ))
    (simplify : ρ → Except GeometryError ρ) (t : Table ρ) (r : Request ρ α) :
    Except LayerError (Dataset ρ α) :=
  (t.weightedRows project simplify r).map (Dataset.ofRows r.asDensity)

end Table

end Gridding
