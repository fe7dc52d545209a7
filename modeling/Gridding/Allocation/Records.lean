import Gridding.Allocation.Basic
import Gridding.Hashing.LocationId
import Gridding.Numeric.Decimal
import Gridding.Numeric.Reading
import Gridding.Sphere.Footprint
/-!
# Allocation records

One record for each cell of an allocation: its place, the identifier of the source location, its
weight, whether the source is covered, and its polygon. A table file keeps weights with fifteen
places in twenty-four characters.
-/

namespace Gridding

structure AllocationRecord where
  row : Int
  col : Int
  /-- Empty if the allocation has no shape. -/
  location : String
  weight : Float
  covered : Bool
  polygon : Geometry

namespace AllocationRecord

def coveredMark (r : AllocationRecord) : String := if r.covered then "T" else "F"

def columnNames : List String := ["ROW", "COL", "INPUT_ID", "WEIGHT", "COVERED", "geometry"]

/-- A weight as a table file gives it back. -/
def storedWeight (x : Float) : Float :=
  let text := (Decimal.fixed 15 x true).toList.take 24
  (readFloat? (String.ofList text)).getD x

def stored (r : AllocationRecord) : AllocationRecord := { r with weight := storedWeight r.weight }

end AllocationRecord

def Shape.locationId (s : Shape Footprint) : String := Gridding.locationId s.key s.footprint.bytes

def Allocation.records (a : Allocation Footprint Float) : List AllocationRecord :=
  let location := (a.shape.map Shape.locationId).getD ""
  a.cells.map fun c => ⟨c.row, c.col, location, c.weight, a.covered, c.polygon⟩

end Gridding
