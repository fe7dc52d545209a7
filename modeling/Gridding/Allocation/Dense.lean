import Gridding.Allocation.Basic
/-!
# Allocations as tables

The table has a row for each row of the grid. Entries for one cell are added up. A place counts
from the end if it is negative, as long as it stays in the table. If the shape is covered by the
grid the table is scaled to the sum one; an allocation whose weights sum to zero has no table.
-/

namespace Gridding

inductive DenseError where
  | negativeSize
  | outOfRange
  deriving DecidableEq, Repr

structure Dense (α : Type) where
  rows : Option (List (List α))
  covered : Bool
  deriving Repr

/-- The place in a list of length `n` that an index means, if any. -/
def wrapIndex? (n i : Int) : Option Nat :=
  if 0 ≤ i ∧ i < n then some i.toNat
  else if -n ≤ i ∧ i < 0 then some (i + n).toNat
  else none

namespace Allocation

variable {ρ α : Type} [Zero α] [One α] [Add α] [Mul α] [Div α] [BEq α] [Tally α]

/-- The weights added up at one place of the table, in the order of the cells. -/
def entry (placed : List (Nat × Nat × α)) (row col : Nat) : α :=
  (placed.filter fun p => p.1 = row && p.2.1 = col).foldl (fun sum p => sum + p.2.2) 0

def placeCell? (nx ny : Int) (c : Cell ρ α) : Option (Nat × Nat × α) :=
  match wrapIndex? ny c.row, wrapIndex? nx c.col with
  | some row, some col => some (row, col, c.weight)
  | _, _ => none

def dense (a : Allocation ρ α) : Except DenseError (Dense α) :=
  if a.nx < 0 ∨ a.ny < 0 then .error .negativeSize
  else
    match a.cells.mapM (placeCell? a.nx a.ny) with
    | none => .error .outOfRange
    | some placed =>
      let table := (List.range a.ny.toNat).map fun r =>
        (List.range a.nx.toNat).map fun c => entry placed r c
      let total := Tally.tableSum table.flatten
      if total == 0 then .ok ⟨none, false⟩
      else if a.covered then
        let scale := 1 / total
        .ok ⟨some (table.map fun row => row.map (· * scale)), true⟩
      else .ok ⟨some table, false⟩

end Allocation

end Gridding
