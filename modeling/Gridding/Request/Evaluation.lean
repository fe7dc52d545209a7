import Gridding.Allocation.Merge
import Gridding.Surrogate.Basic
/-!
# Evaluation of surrogates

A simple surrogate is allocated on its own. A merged one is allocated by allocating its components
from first to last and merging what they give; the first failure ends it. A failure names the
surrogate it happened at, and is handed up as it is.
-/

namespace Gridding

inductive Cause (ε : Type) where
  | noComponents (name : String)
  | merge (e : MergeError)
  | simple (e : ε)
  deriving Repr

/-- Why the surrogate of an identifier has no allocation at a location. -/
structure ComputationError (ε : Type) where
  surrogate : String
  location : String
  cause : Cause ε
  deriving Repr

def noComponentsMessage (name : String) : String :=
  "merged surrogate " ++ Text.quoted name ++ " has no components"

/-- The message about a failure, whose cause is told by `cause`. -/
def ComputationError.message {ε : Type} (e : ComputationError ε) (cause : String) : String :=
  "surrogate " ++ e.surrogate ++ " at location " ++ e.location ++ ": " ++ cause

namespace Surrogate

variable {σ ρ α ε S : Type} [Zero α] [Add α] [Mul α]

mutual

/-- Allocates a surrogate given how to allocate a simple one. The state `S` goes through all
allocations in turn. -/
def evaluate (allocate : Label → σ → S → Except ε (Allocation ρ α) × S) (location : String) :
    Surrogate σ α → S → Except (ComputationError ε) (Allocation ρ α) × S
  | simple l source, s =>
    let (r, s) := allocate l source s
    (r.mapError fun e => ⟨l.identifier, location, .simple e⟩, s)
  | merged l components, s =>
    if components.isEmpty then (.error ⟨l.identifier, location, .noComponents l.name⟩, s)
    else
      match evaluateAll allocate location components s with
      | (.error e, s) => (.error e, s)
      | (.ok results, s) =>
        ((Allocation.merge results (components.map (·.2))).mapError fun e =>
          ⟨l.identifier, location, .merge e⟩, s)

def evaluateAll (allocate : Label → σ → S → Except ε (Allocation ρ α) × S) (location : String) :
    List (Surrogate σ α × α) → S → Except (ComputationError ε) (List (Allocation ρ α)) × S
  | [], s => (.ok [], s)
  | (c, _) :: cs, s =>
    match evaluate allocate location c s with
    | (.error e, s) => (.error e, s)
    | (.ok a, s) =>
      let (r, s) := evaluateAll allocate location cs s
      (r.map (a :: ·), s)

end

end Surrogate

end Gridding
