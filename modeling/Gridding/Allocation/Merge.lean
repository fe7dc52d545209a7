import Gridding.Allocation.Basic
/-!
# Weighted sums of allocations

The merged allocation lists the cells of all components with their weights multiplied; a cell may
occur more than once. Coverage and shape are those of the first component.
-/

namespace Gridding

inductive MergeError where
  | nothing
  | multiplierCount (results multipliers : Nat)
  | differentGrids (nx ny otherNx otherNy : Int)
  deriving DecidableEq, Repr

def MergeError.message : MergeError → String
  | nothing => "merge_results needs at least one result"
  | multiplierCount results multipliers =>
    toString results ++ " results but " ++ toString multipliers ++ " multipliers"
  | differentGrids nx ny otherNx otherNy =>
    "cannot merge results on different grids: " ++ toString nx ++ "x" ++ toString ny ++ " vs " ++
      toString otherNx ++ "x" ++ toString otherNy

namespace Allocation

variable {ρ α : Type} [Zero α] [Add α] [Mul α]

def scaledCells (a : Allocation ρ α) (factor : α) : List (Cell ρ α) :=
  a.cells.map fun c => c.withWeight (c.weight * factor)

def merge (results : List (Allocation ρ α)) (multipliers : List α) :
    Except MergeError (Allocation ρ α) :=
  match results with
  | [] => .error .nothing
  | first :: _ =>
    if results.length ≠ multipliers.length then
      .error (.multiplierCount results.length multipliers.length)
    else
      match results.find? fun r => r.nx ≠ first.nx || r.ny ≠ first.ny with
      | some other => .error (.differentGrids first.nx first.ny other.nx other.ny)
      | none =>
        let pairs := results.zip multipliers
        .ok ⟨pairs.flatMap fun p => scaledCells p.1 p.2, first.covered, first.nx, first.ny,
          first.shape, pairs.foldl (fun sum p => sum + p.2 * p.1.totalWeight) 0⟩

end Allocation

end Gridding
