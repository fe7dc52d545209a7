import Gridding.Cache.Routine
import Gridding.Request.Gridder
/-!
# Calls

A call asks a gridder for the allocation of a shape, for the same as a table, or for the allocations
of several shapes. `answer` is the reply to a call that is served while nobody makes another one;
`serve` is the routine by which it is served in any case. The jobs in it are the simple allocations
and the numbering of results.
-/

namespace Gridding

inductive Call (σ ρ α : Type) where
  | allocate (s : Surrogate σ α) (shape : Option (Shape ρ)) (key : Option String)
  | gridded (s : Surrogate σ α) (shape : Option (Shape ρ))
  | allocateMany (s : Surrogate σ α) (shapes : List (String × Shape ρ)) (keys : List String)

inductive Reply (ρ α ε φ : Type) where
  | allocation (r : Except (RequestError ε φ) (Computed ρ α))
  | table (r : Except (TableError ε φ) (Dense α))
  | allocations (r : Except (RequestError ε φ) (List (String × Computed ρ α)))

inductive Job (σ ρ : Type) where
  | allocate (l : Label) (source : σ) (shape : Shape ρ)
  /-- Counts a result. -/
  | number

variable {σ ρ α β ε φ : Type}

def Job.Outcome (α ε φ : Type) : Job σ ρ → Type
  | .allocate _ _ _ => Except (SimpleError ε φ) (Allocation ρ α)
  | .number => Nat

abbrev CallRoutine (σ ρ α ε φ : Type) :=
  Cache.Routine String (RequestError ε φ) (Computed ρ α) (Job σ ρ) (Job.Outcome α ε φ)
    (Reply ρ α ε φ)

variable [Zero α] [Add α] [Mul α]

namespace Surrogate

mutual

/-- Allocates a surrogate to a shape, and goes on with what comes of it. -/
def routine (shape : Shape ρ) : Surrogate σ α →
    (Except (ComputationError (SimpleError ε φ)) (Allocation ρ α) → CallRoutine σ ρ α ε φ) →
      CallRoutine σ ρ α ε φ
  | simple l source, next =>
    .work (.allocate l source shape)
      fun (r : Except (SimpleError ε φ) (Allocation ρ α)) =>
        next (r.mapError fun e => ⟨l.identifier, shape.key, .simple e⟩)
  | merged l components, next =>
    if components.isEmpty then next (.error ⟨l.identifier, shape.key, .noComponents l.name⟩)
    else
      routineAll shape components fun
        | .error e => next (.error e)
        | .ok results =>
          next ((Allocation.merge results (components.map (·.2))).mapError fun e =>
            ⟨l.identifier, shape.key, .merge e⟩)

def routineAll (shape : Shape ρ) : List (Surrogate σ α × α) →
    (Except (ComputationError (SimpleError ε φ)) (List (Allocation ρ α)) → CallRoutine σ ρ α ε φ) →
      CallRoutine σ ρ α ε φ
  | [], next => next (.ok [])
  | (c, _) :: cs, next =>
    routine shape c fun
      | .error e => next (.error e)
      | .ok a => routineAll shape cs fun r => next (r.map (a :: ·))

end

end Surrogate

namespace Gridder

section Serve

variable (g : Gridder σ ρ α β ε)

/-- Computes a result, without looking for it in the cache. -/
def computing (s : Surrogate σ α) (shape : Shape ρ)
    (next : Except (RequestError ε φ) (Computed ρ α) → CallRoutine σ ρ α ε φ) :
    CallRoutine σ ρ α ε φ :=
  s.routine shape fun r => .work .number
    fun (n : Nat) => next ((r.mapError .computation).map (Computed.mk n))

def requesting (s : Surrogate σ α) (shape : Option (Shape ρ)) (key : Option String)
    (next : Except (RequestError ε φ) (Computed ρ α) → CallRoutine σ ρ α ε φ) :
    CallRoutine σ ρ α ε φ :=
  match shape with
  | none =>
    let named := (key.filter (!·.isEmpty)).getD (s.label.identifier ++ " on grid " ++ g.grid.name)
    next (.error (.missingLocation named))
  | some shape =>
    if g.caches then .fetch (g.cacheKey s shape) (computing s shape) next
    else computing s shape next

def requestingAll (s : Surrogate σ α) (shapes : List (String × Shape ρ)) :
    List String → List (String × Computed ρ α) →
      (Except (RequestError ε φ) (List (String × Computed ρ α)) → CallRoutine σ ρ α ε φ) →
        CallRoutine σ ρ α ε φ
  | [], done, next => next (.ok done)
  | key :: keys, done, next =>
    g.requesting s (shapes.lookup key) (some key) fun
      | .error e => next (.error e)
      | .ok c => requestingAll s shapes keys (Entries.put key c done) next

end Serve

variable [One α] [Div α] [LE α] [LT α] [DecidableLE α] [DecidableLT α] [BEq α] [Tally α]

def serve (g : Gridder σ ρ α β ε) : Call σ ρ α → CallRoutine σ ρ α ε φ
  | .allocate s shape key => g.requesting s shape key fun r => .done (.allocation r)
  | .gridded s shape =>
    g.requesting s shape none fun
      | .error e => .done (.table (.error (.request e)))
      | .ok c => .done (.table (c.allocation.dense.mapError .dense))
  | .allocateMany s shapes keys =>
    g.requestingAll s shapes keys [] fun r => .done (.allocations r)

variable [Region ρ α φ]

def answer (g : Gridder σ ρ α β ε) (w : Shared ρ α β) :
    Call σ ρ α → Reply ρ α ε φ × Shared ρ α β
  | .allocate s shape key =>
    let (r, w) := g.request s shape key w
    (.allocation r, w)
  | .gridded s shape =>
    let (r, w) := g.gridded s shape w
    (.table r, w)
  | .allocateMany s shapes keys =>
    let (r, w) := g.requestAll s shapes keys [] w
    (.allocations r, w)

/-- Does a job at the desk. -/
def perform (g : Gridder σ ρ α β ε) : (job : Job σ ρ) → Desk β → Job.Outcome α ε φ job × Desk β
  | .allocate l source shape, d => g.allocateSimple shape l source d
  | .number, d => (d.runs, { d with runs := d.runs + 1 })

end Gridder

end Gridding
