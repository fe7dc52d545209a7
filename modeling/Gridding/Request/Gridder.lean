import Gridding.Allocation.Dense
import Gridding.Allocation.Engine
import Gridding.Cache.SingleFlight
import Gridding.Request.Evaluation
import Gridding.Store.Granules
/-!
# Requests for allocations

A gridder allocates shapes to one grid. It may look for results in a cache and for granules in a
store; only requests from outside go through the cache, the components of merged surrogates do not.
-/

namespace Gridding

inductive SimpleError (ε φ : Type) where
  | source (e : ε)
  | store (e : Store.StoreError)
  | fault (f : Fault φ)
  deriving Repr

inductive RequestError (ε φ : Type) where
  | missingLocation (key : String)
  | cache (e : CacheError String)
  | computation (e : ComputationError (SimpleError ε φ))
  deriving Repr

/-- Why there is no table for a request. -/
inductive TableError (ε φ : Type) where
  | request (e : RequestError ε φ)
  | dense (e : DenseError)
  deriving Repr

def missingLocationMessage (key : String) : String := "missing input location: " ++ Text.quoted key

/-- A result and the number of computations before its own, which tells it from all others. -/
structure Computed (ρ α : Type) where
  run : Nat
  allocation : Allocation ρ α

/-- What gridders share: the stored granules by file, in the form `β`, and the number of
computations so far. -/
structure Desk (β : Type) where
  files : Store.Directory β
  runs : Nat

structure Gridder (σ ρ α β ε : Type) where
  grid : Grid ρ α
  workers : Int
  /-- The tolerance of simplification as it stands in the keys of stored granules. -/
  tolerance : String
  /-- The granules of a simple surrogate for a shape. -/
  granules : Label → σ → Shape ρ → Except ε (Dataset ρ α)
  encode : Dataset ρ α → List β
  decode : List β → Except ε (Dataset ρ α)
  caches : Bool
  stores : Bool

namespace Gridder

variable {σ ρ α β ε φ : Type} [Region ρ α φ] [Zero α] [One α] [Add α] [Mul α] [Div α] [LE α] [LT α]
  [DecidableLE α] [DecidableLT α] [BEq α] [Tally α]

def cacheKey (g : Gridder σ ρ α β ε) (s : Surrogate σ α) (shape : Shape ρ) : String :=
  "surrogate_" ++ s.label.region ++ s.label.code ++ "_" ++ g.grid.name ++ "_" ++ shape.key

def storeKey (g : Gridder σ ρ α β ε) (l : Label) (shape : Shape ρ) : String :=
  "srgdata_" ++ l.identifier ++ "_" ++ g.grid.name ++ "_" ++ shape.key ++ "_" ++ g.tolerance

def dataset (g : Gridder σ ρ α β ε) (shape : Shape ρ) (l : Label) (source : σ) (d : Desk β) :
    Except (SimpleError ε φ) (Dataset ρ α) × Desk β :=
  let build (_ : Unit) : Except (SimpleError ε φ) (Dataset ρ α) × Unit :=
    ((g.granules l source shape).mapError .source, ())
  if g.stores then
    let (r, files, _) := d.files.loadOrBuild .store g.encode
      (fun content => (g.decode content).mapError .source) (g.storeKey l shape) build ()
    (r, { d with files })
  else ((build ()).1, d)

/-- Allocates a simple surrogate. -/
def allocateSimple (g : Gridder σ ρ α β ε) (shape : Shape ρ) (l : Label) (source : σ)
    (d : Desk β) : Except (SimpleError ε φ) (Allocation ρ α) × Desk β :=
  match g.dataset shape l source d with
  | (.error e, d) => (.error e, d)
  | (.ok data, d) => ((Gridding.allocate g.workers shape g.grid data).mapError .fault, d)

/-- Computes a result, without looking for it in the cache. -/
def compute (g : Gridder σ ρ α β ε) (s : Surrogate σ α) (shape : Shape ρ) (d : Desk β) :
    Except (RequestError ε φ) (Computed ρ α) × Desk β :=
  let (r, d) := s.evaluate (g.allocateSimple shape) shape.key d
  ((r.mapError .computation).map (Computed.mk d.runs), { d with runs := d.runs + 1 })

/-- The shared state of the requests: the cache and the desk. -/
abbrev Shared (ρ α β : Type) := Cache String (Computed ρ α) × Desk β

/-- Allocates a shape. If it is missing, the request is named by the key that was looked for. -/
def request (g : Gridder σ ρ α β ε) (s : Surrogate σ α) (shape : Option (Shape ρ))
    (key : Option String) : Shared ρ α β →
      Except (RequestError ε φ) (Computed ρ α) × Shared ρ α β := fun (cache, desk) =>
  match shape with
  | none =>
    let named := (key.filter (!·.isEmpty)).getD (s.label.identifier ++ " on grid " ++ g.grid.name)
    (.error (.missingLocation named), cache, desk)
  | some shape =>
    let compute : Cache.Action String (Computed ρ α) (Desk β) (RequestError ε φ) :=
      fun (cache, desk) =>
        let (r, desk) := g.compute s shape desk
        (r, cache, desk)
    if g.caches then Cache.fetch .cache 0 (g.cacheKey s shape) compute (cache, desk)
    else compute (cache, desk)

/-- Allocates a shape as a table. -/
def gridded (g : Gridder σ ρ α β ε) (s : Surrogate σ α) (shape : Option (Shape ρ))
    (w : Shared ρ α β) : Except (TableError ε φ) (Dense α) × Shared ρ α β :=
  match g.request s shape none w with
  | (.error e, w) => (.error (.request e), w)
  | (.ok c, w) => (c.allocation.dense.mapError .dense, w)

/-- Allocates the shapes of some keys in turn, up to the first failure. -/
def requestAll (g : Gridder σ ρ α β ε) (s : Surrogate σ α) (shapes : List (String × Shape ρ)) :
    List String → List (String × Computed ρ α) → Shared ρ α β →
      Except (RequestError ε φ) (List (String × Computed ρ α)) × Shared ρ α β
  | [], done, w => (.ok done, w)
  | key :: keys, done, w =>
    match g.request s (shapes.lookup key) (some key) w with
    | (.error e, w) => (.error e, w)
    | (.ok c, w) => requestAll g s shapes keys (Entries.put key c done) w

end Gridder

end Gridding
