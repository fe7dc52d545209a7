import Gridding.Surrogate.Basic
import Gridding.Surrogate.Layer
/-!
# Sources of granules

A source is a layer, in memory or in a file, with the columns that weigh its rows and a filter. It
gives the granules that meet a shape.
-/

namespace Gridding

inductive SourceData where
  | missing
  | file (path : String)
  | layer (l : Layer)

structure Source where
  data : SourceData
  weightColumns : List String
  weightFactors : List Float
  filter : Option RowFilter

inductive SourceError where
  | noData (name : String)
  | unreadable (path : String)
  /-- Merged surrogates have no granules. -/
  | merged (name : String)
  | layer (e : LayerError)
  deriving DecidableEq, Repr

def SourceError.message? : SourceError → Option String
  | noData name => some ("surrogate " ++ Text.quoted name ++ " has no source data")
  | unreadable _ => none
  | merged name => some ("merged surrogate " ++ Text.quoted name ++ " has no granules of its own")
  | layer (.filter e) => some e.message
  | layer (.projection e) => some e.message
  | layer (.weights e) => some e.message
  | layer (.geometry _) => none

namespace Source

def layer? (readFile : String → Option Layer) (name : String) (s : Source) :
    Except SourceError Layer :=
  match s.data with
  | .missing => .error (.noData name)
  | .layer l => .ok l
  | .file path =>
    match readFile path with
    | some l => .ok l
    | none => .error (.unreadable path)

/-- The granules that meet a region, for a source of the given name. -/
def granules (readFile : String → Option Layer) (region : Footprint) (tolerance : Float)
    (name : String) (s : Source) : Except SourceError (Dataset Footprint Float) := do
  let l ← s.layer? readFile name
  (l.dataset ⟨⟨s.weightColumns, s.weightFactors, s.filter, some region, true⟩, tolerance⟩).mapError
    .layer

end Source

def Surrogate.granules (readFile : String → Option Layer) (region : Footprint) (tolerance : Float) :
    Surrogate Source Float → Except SourceError (Dataset Footprint Float)
  | simple l s => s.granules readFile region tolerance l.name
  | merged l _ => .error (.merged l.name)

end Gridding
