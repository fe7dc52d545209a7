import Gridding.Entries
import Gridding.Sphere.Reading
import Gridding.Surrogate.Source
/-!
# Layers and surrogates as documents

A column has a data type, by which its values are numbers or not. A filter may be written as a text
or member by member. A merged surrogate refers to its components by their keys.
-/

namespace Gridding

inductive InputError where
  | system (e : SystemError)
  | filter (e : FilterError)
  | layer (e : LayerError)
  /-- The coordinate system of a layer is not known. -/
  | unknownSystem
  | unknownComponent
  deriving DecidableEq, Repr

/-- A value, which is marked if it is a double. -/
def plainValue : Document → Document
  | .object [("f", v)] => .number v.float
  | v => v

def Column.ofDocument (d : Document) : Column :=
  let storage := Storage.ofName (d.field "dtype").wording
  let value (v : Document) : Document :=
    match storage, plainValue v with
    | _, .null => .null
    | .doubles, v => .number v.float
    | .singles, v => .number v.float
    | _, v => v
  ⟨(d.field "name").wording, storage, (d.field "values").items.map value⟩

def RowFilter.ofMembers (d : Document) : Except FilterError (Option RowFilter) :=
  match d with
  | .object _ =>
    .ok (some ⟨(d.field "column").wording, !(d.field "equal").isFalse,
      (d.field "values").items.map Document.wording⟩)
  | d => RowFilter.ofDocument d

def Layer.ofDocument (d : Document) : Except InputError Layer := do
  let system ← (DeclaredSystem.ofMember d "crs").mapError .system
  let geometries := (d.field "geometry").items.map fun g =>
    if g.isNull then none else some (Geometry.ofDocument g)
  match system with
  | .unknown => .error .unknownSystem
  | _ => .ok ⟨geometries, (d.field "columns").items.map Column.ofDocument, system⟩

def Layer.Request.ofDocument (d : Document) : Except InputError Layer.Request := do
  let filter ← (RowFilter.ofMembers (d.field "filter")).mapError .filter
  let clipTo ← match d.field "clip_to" with
    | .null => pure none
    | f => ((Footprint.ofDocument f).mapError .system).map some
  return ⟨⟨(d.field "weight_columns").items.map Document.wording,
    (d.field "weight_factors").items.map Document.float, filter, clipTo,
    !(d.field "as_density").isFalse⟩, (d.field "simplify_tolerance").floatOr 0.0⟩

/-- A dataset made of a layer, or of granules one by one. -/
def Dataset.ofDocument (d : Document) : Except InputError (Dataset Footprint Float) := do
  if d.has "frame" then
    let layer ← Layer.ofDocument (d.field "frame")
    (layer.dataset (← Layer.Request.ofDocument d)).mapError .layer
  else
    let granules ← (d.field "granules").items.mapM fun g => do
      let f ← (Footprint.ofDocument (g.field "footprint")).mapError .system
      return (⟨f, (g.field "weight").float⟩ : Granule Footprint Float)
    return Dataset.ofGranules granules (d.field "dimension").integer?

def SourceData.ofDocument : Document → Except InputError SourceData
  | .null => .ok .missing
  | .text path => .ok (.file path)
  | d => (Layer.ofDocument d).map .layer

/-- A surrogate; its components are among those known. -/
def Surrogate.ofDocument (known : List (String × Surrogate Source Float)) (d : Document) :
    Except InputError (Surrogate Source Float) := do
  let word (name : String) : String := (d.field name).wording
  let label : Label := ⟨word "region", word "code", word "name"⟩
  if d.has "merged" then
    let components ← (d.field "merged").items.mapM fun c =>
      match c with
      | .list [key, factor] =>
        match known.lookup key.wording with
        | some s => Except.ok (s, factor.float)
        | none => .error .unknownComponent
      | _ => .error .unknownComponent
    return .merged label components
  else
    let data ← SourceData.ofDocument (d.field "source")
    let filter ← (RowFilter.ofMembers (d.field "filter")).mapError .filter
    return .simple label ⟨data, (d.field "weight_columns").items.map Document.wording,
      (d.field "weight_factors").items.map Document.float, filter⟩

/-- Surrogates by their keys; components come before what is merged of them. -/
def Surrogate.allOfDocuments (ds : List Document) :
    Except InputError (List (String × Surrogate Source Float)) :=
  ds.foldlM (fun known d => do
    return Entries.put (d.field "id").wording (← Surrogate.ofDocument known d) known) []

end Gridding
