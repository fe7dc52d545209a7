import Gridding.Numeric.Tally
import Gridding.Table.Amounts
/-!
# Row weights

The weight of a row is the sum of its amounts in the weight columns, each times its factor. Without
weight columns every row weighs one; without factors every factor is one.
-/

namespace Gridding

inductive WeightError where
  | factorCount (columns factors : Nat)
  | unknownColumn (name : String)
  deriving DecidableEq, Repr

def WeightError.message : WeightError → String
  | factorCount columns factors =>
    toString columns ++ " weight columns but " ++ toString factors ++ " weight factors"
  | unknownColumn name => "surrogate weight column '" ++ name ++ "' not found"

section

variable {α : Type} [Zero α] [One α] [Add α] [Mul α] [Amount α]

/-- Adds the amounts of the weight columns one column after the other. -/
def addColumns (columns : List Column) :
    List (String × α) → List α → Except WeightError (List α)
  | [], totals => .ok totals
  | (name, factor) :: rest, totals =>
    match columns.find? fun c => c.name == name with
    | none => .error (.unknownColumn name)
    | some c =>
      addColumns columns rest (List.zipWith (fun t x => t + factor * x) totals c.amounts)

def rowWeights (columns : List Column) (rows : Nat) (names : List String) (factors : List α) :
    Except WeightError (List α) :=
  if names.isEmpty then .ok (List.replicate rows 1)
  else if !factors.isEmpty && factors.length ≠ names.length then
    .error (.factorCount names.length factors.length)
  else
    let used := if factors.isEmpty then names.map fun _ => 1 else factors
    addColumns columns (names.zip used) (List.replicate rows 0)

end

end Gridding
