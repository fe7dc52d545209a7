import Gridding.Region.Basic
import Gridding.Table.Column
/-!
# Tables of regions

A table has a region, or none, in every row and values of the rows in columns. Rows are chosen by
their places.
-/

namespace Gridding

structure Table (ρ : Type) where
  regions : List (Option ρ)
  columns : List Column

namespace Table

variable {ρ α ε : Type}

def size (t : Table ρ) : Nat := t.regions.length

def columnNames (t : Table ρ) : List String := t.columns.map (·.name) ++ ["geometry"]

/-- The rows at the given places. -/
def select (t : Table ρ) (rows : List Nat) : Table ρ :=
  let rs := t.regions.toArray
  ⟨rows.map fun i => rs.getD i none, t.columns.map (·.select rows)⟩

def placesWhere (t : Table ρ) (keep : Option ρ → Bool) : List Nat :=
  ((List.range t.size).zip t.regions).filterMap fun p => if keep p.2 then some p.1 else none

/-- The rows with a region of some kind. -/
def having (t : Table ρ) (keep : ρ → Bool) : Table ρ :=
  t.select (t.placesWhere (Option.any keep))

variable [Region ρ α ε]

/-- The rows with a region that is not empty. -/
def present (t : Table ρ) : Table ρ := t.having fun r => !Region.isEmpty r

/-- The rows that meet a region. -/
def meeting (t : Table ρ) (region : ρ) : Table ρ := t.having fun r => Region.meets r region

end Table

end Gridding
