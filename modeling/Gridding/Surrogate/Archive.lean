import Gridding.Allocation.Basic
import Gridding.Sphere.Footprint
/-!
# Archives of datasets

An archive joins the binary forms of all granules and keeps where each one starts and ends, their
weights and the dimension of the dataset, which has to fit in 64 bits. `encode`, `ofDataset` and
`decode` work for any binary form of regions.
-/

namespace Gridding

structure Archive (α : Type) where
  bytes : List UInt8
  /-- The ends of the parts, with the start of the first one in front. -/
  offsets : List Nat
  weights : List α
  dimension : Int
  deriving BEq, Repr

/-- Why a dataset has no archive. -/
inductive ArchiveError where
  | dimensionTooLarge
  deriving DecidableEq, Repr

namespace Archive

variable {ρ α : Type}

/-- The running totals of the lengths, from zero. -/
def runningEnds : Nat → List (List UInt8) → List Nat
  | start, [] => [start]
  | start, p :: ps => start :: runningEnds (start + p.length) ps

/-- What an archive of a dataset is made of, the dimension being that of regions. -/
def encode (form : ρ → List UInt8) (d : Dataset ρ α) : Archive α :=
  let parts := d.granules.map fun g => form g.footprint
  ⟨parts.flatten, runningEnds 0 parts, d.granules.map (·.weight), d.dimension⟩

/-- Does a number fit in 64 bits with its sign? -/
def fitsWord (n : Int) : Bool := -9223372036854775808 ≤ n && n ≤ 9223372036854775807

/-- The archive of a dataset of any dimension. -/
def ofDataset (form : ρ → List UInt8) (d : Dataset ρ α) : Except ArchiveError (Archive α) :=
  if fitsWord d.dimension then .ok (encode form d) else .error .dimensionTooLarge

/-- The bytes between two offsets. -/
def slice (bytes : List UInt8) (start stop : Nat) : List UInt8 :=
  (bytes.drop start).take (stop - start)

def slices (bytes : List UInt8) (offsets : List Nat) : List (List UInt8) :=
  List.zipWith (slice bytes) offsets offsets.tail

/-- The dataset of an archive, if every part is the binary form of a region. -/
def decode (read : List UInt8 → Option ρ) (a : Archive α) : Option (Dataset ρ α) :=
  ((slices a.bytes a.offsets).mapM read).map fun regions =>
    ⟨List.zipWith Granule.mk regions a.weights, a.dimension⟩

end Archive

def Footprint.ofBytes (bytes : List UInt8) : Option Footprint :=
  (WellKnownBinary.decode bytes).map Footprint.mk

end Gridding
