import Gridding.Document.Access
import Gridding.Surrogate.Registry
import Gridding.Surrogate.Source
/-!
# Listings of surrogates

A listing is a document with one entry for each surrogate. A simple entry names the file of its
layer, relative to the folder of the listing, with weight columns, weight factors and a filter; a
merged entry lists the names and multipliers of its components.
-/

namespace Gridding

inductive ListingError where
  /-- A value is not of the kind that is needed. -/
  | kind
  | missingMember
  | number (e : NumberError)
  | filter (e : FilterError)
  deriving DecidableEq, Repr

namespace Listing

/-- What a value consists of: the items of a list, the names of members, the characters of a
text. -/
def parts : Document → Except ListingError (List Document)
  | .list ds => .ok ds
  | .object ms => .ok (ms.map fun m => .text m.1)
  | .text s => .ok (s.toList.map fun c => .text (String.singleton c))
  | _ => .error .kind

/-- The parts of a value that is given; otherwise there are none. -/
def givenParts (d : Document) : Except ListingError (List Document) :=
  if d.isGiven then parts d else .ok []

def required (d : Document) (name : String) : Except ListingError Document :=
  match d with
  | .object _ =>
    match d.member? name with
    | some v => .ok v
    | none => .error .missingMember
  | _ => .error .kind

/-- A number, also if it is written as a text. -/
def number : Document → Except ListingError Float
  | .integer n =>
    let x := floatOfInt n
    if x.isInf then .error (.number .infinite) else .ok x
  | .number x => .ok x
  | .bool b => .ok (if b then 1.0 else 0.0)
  | .text s =>
    match readFloat? s with
    | some x => .ok x
    | none => .error (.number .notANumber)
  | _ => .error .kind

def mergeItem (d : Document) : Registry.MergeItem ListingError Float :=
  ⟨(required d "name").map Document.display, required d "multiplier" >>= number⟩

def path (folder : String) : Document → Except ListingError SourceData
  | .text s => .ok (.file (if s.isEmpty || s.startsWith "/" then s else folder ++ "/" ++ s))
  | d => if d.isGiven then .error .kind else .ok .missing

inductive Entry where
  | simple (label : Label) (source : Source)
  | merged (key : RegistryKey) (e : Registry.MergedEntry ListingError Float)

def entry (folder : String) (d : Document) : Except ListingError Entry := do
  let region ← (required d "region").map Document.display
  let name ← (required d "name").map Document.display
  let code ← (required d "code").map Document.display
  let components := d.field "merge"
  if components.isGiven then
    return .merged (region, name) ⟨code, (parts components).map (·.map mergeItem)⟩
  let data ← path folder (d.field "shapefile")
  let columns ← givenParts (d.field "weight_columns")
  let factors ← givenParts (d.field "weight_factors") >>= (·.mapM number)
  let filter ← (RowFilter.ofDocument (d.field "filter")).mapError .filter
  return .simple ⟨region, code, name⟩ ⟨data, columns.map Document.display, factors, filter⟩

/-- The entries of a listing, which may be under a member of their own. -/
def entries (d : Document) : Except ListingError (List Document) :=
  if d.isGiven then
    match d with
    | .object _ => parts ((d.member? "surrogates").getD (.list []))
    | _ => parts d
  else .ok []

namespace Entry

def simple? : Entry → Option (Label × Source)
  | simple label source => some (label, source)
  | merged _ _ => none

/-- Of several merged entries of a name the last counts, in the place of the first. -/
def putMerged (done : List (RegistryKey × Registry.MergedEntry ListingError Float)) :
    Entry → List (RegistryKey × Registry.MergedEntry ListingError Float)
  | simple _ _ => done
  | merged key e => Entries.put key e done

end Entry

def registryBy {S : Type} (maker : Registry.Maker Source Float S) (folder : String) (d : Document) :
    Except (Registry.ResolveError ListingError) (Register S) := do
  let es ← (entries d >>= (·.mapM (entry folder))).mapError .entry
  Registry.ofEntries maker (es.filterMap Entry.simple?) (es.foldl Entry.putMerged [])

def registry (folder : String) (d : Document) :
    Except (Registry.ResolveError ListingError) (Registry Source Float) :=
  registryBy .plain folder d

end Listing

end Gridding
