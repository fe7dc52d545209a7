import Gridding.Numeric.Tally
/-!
# Regions

What allocation has to know of the places it works with: their dimension, which pairs can meet at
all, intersections and their measures. A region is empty if its dimension is negative. Taking an
intersection or a union may fail, and so may a sum of measures.
-/

namespace Gridding

class Region (ρ : Type) (α : outParam Type) (ε : outParam Type) where
  dimension : ρ → Int
  /-- Do the bounds of two regions that are not empty meet? -/
  isNear : ρ → ρ → Bool
  meets : ρ → ρ → Bool
  meet : ρ → ρ → Except ε ρ
  /-- Area, length or number of points, by dimension. -/
  measure : Int → ρ → α
  covers : ρ → ρ → Bool
  union : List ρ → Except ε ρ
  parts : ρ → List ρ
  /-- Is the region a single point? -/
  isPoint : ρ → Bool

namespace Region

variable {ρ α ε : Type} [Region ρ α ε]

def isEmpty (r : ρ) : Bool := dimension r < 0

end Region

/-- Why work with regions and their measures failed. -/
inductive Fault (ε : Type) where
  | region (e : ε)
  | sum (e : SumError)
  deriving Repr

namespace Fault

variable {ρ α ε : Type}

def meet [Region ρ α ε] (a b : ρ) : Except (Fault ε) ρ := (Region.meet a b).mapError region

def add [Tally α] (xs : List α) : Except (Fault ε) α := (Tally.sum xs).mapError sum

end Fault

end Gridding
