import Gridding.Request.Gridder
import Gridding.Settings.Defaults
import Gridding.Surrogate.Archive
import Gridding.Surrogate.Source
/-!
# Gridders over layers

The granules of a surrogate come from its source layer and are stored as archives.
-/

namespace Gridding

inductive GranuleError where
  | source (e : SourceError)
  /-- What is stored is no archive. -/
  | damaged
  deriving DecidableEq, Repr

abbrev LayerGridder := Gridder Source Footprint Float (Archive Float) GranuleError

/-- What a gridder is told; the rest comes from the defaults. -/
structure GridderOptions where
  workers : Option Int
  tolerance : Option Float
  caches : Bool
  stores : Bool

namespace GridderOptions

def effectiveTolerance (o : GridderOptions) (d : Defaults) : Float := o.tolerance.getD d.tolerance

/-- The number of workers, if the machine does not decide. -/
def effectiveWorkers (o : GridderOptions) (d : Defaults) : Option Nat :=
  explicitWorkers? (o.workers.or d.workers)

end GridderOptions

def decodeArchives : List (Archive Float) → Except GranuleError (Dataset Footprint Float)
  | [a] =>
    match a.decode Footprint.ofBytes with
    | some d => .ok d
    | none => .error .damaged
  | _ => .error .damaged

def LayerGridder.new (readFile : String → Option Layer) (grid : Grid Footprint Float)
    (o : GridderOptions) (d : Defaults) : LayerGridder where
  grid := grid
  workers := ((o.effectiveWorkers d).getD 1 : Nat)
  tolerance := Decimal.general 6 (o.effectiveTolerance d)
  granules l source shape :=
    (source.granules readFile shape.footprint (o.effectiveTolerance d) l.name).mapError .source
  encode data := [Archive.encode Footprint.bytes data]
  decode := decodeArchives
  caches := o.caches
  stores := o.stores

/-- A gridder whose defaults come from settings and from the environment variable for workers. -/
def LayerGridder.configured (readFile : String → Option Layer) (grid : Grid Footprint Float)
    (o : GridderOptions) (settings : List (String × Document)) (workersVariable : Option String) :
    Except Defaults.Refusal LayerGridder :=
  (Defaults.resolve settings workersVariable).map (.new readFile grid o)

end Gridding
