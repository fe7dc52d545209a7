import Gridding.Document.Display
import Gridding.Entries
import Gridding.Surrogate.Basic
/-!
# Registries of surrogates

A registry finds surrogates of a region by name and by code. A surrogate added later takes the place
of one with the same name, and of one with the same code.

Merged entries of a list refer to others of their region by name. `resolve` follows the references;
one that leads back to an entry on its way is a cycle. What a surrogate is made into is left to a
`Maker`, since it does not matter for finding the components.
-/

namespace Gridding

/-- The region and either a name or a code. -/
abbrev RegistryKey := String × String

/-- Surrogates of some form by their keys. -/
structure Register (S : Type) where
  byName : List (RegistryKey × S)
  byCode : List (RegistryKey × S)

abbrev Registry (σ α : Type) := Register (Surrogate σ α)

inductive LookupError where
  | unknownName (name region : Document)
  | unknownCode (code region : Document)
  deriving Repr

def LookupError.message : LookupError → String
  | unknownName name region =>
    "no surrogate named " ++ name.shown ++ " for region " ++ region.shown
  | unknownCode code region =>
    "no surrogate code " ++ code.shown ++ " for region " ++ region.shown

def Label.nameKey (l : Label) : RegistryKey := (l.region, l.name)

def Label.codeKey (l : Label) : RegistryKey := (l.region, l.code)

namespace Register

variable {S : Type}

def empty : Register S := ⟨[], []⟩

def size (r : Register S) : Nat := r.byName.length

def names (r : Register S) : List RegistryKey := r.byName.map (·.1)

def codes (r : Register S) : List RegistryKey := r.byCode.map (·.1)

def put (r : Register S) (l : Label) (s : S) : Register S :=
  ⟨Entries.put l.nameKey s r.byName, Entries.put l.codeKey s r.byCode⟩

def find? (r : Register S) (key : RegistryKey) : Option S := r.byName.lookup key

/-- Only texts name a region or a surrogate. -/
def named (r : Register S) (region name : Document) : Except LookupError S :=
  match region, name with
  | .text region', .text name' =>
    match r.find? (region', name') with
    | some s => .ok s
    | none => .error (.unknownName name region)
  | _, _ => .error (.unknownName name region)

/-- A code may be a number, which counts as its digits. -/
def coded (r : Register S) (region code : Document) : Except LookupError S :=
  match region with
  | .text region' =>
    match r.byCode.lookup (region', code.display) with
    | some s => .ok s
    | none => .error (.unknownCode code region)
  | _ => .error (.unknownCode code region)

end Register

namespace Registry

def add {σ α : Type} (r : Registry σ α) (s : Surrogate σ α) : Registry σ α := r.put s.label s

/-- What surrogates are made into, given how many were made before. By that number a maker can tell
what it makes from anything else. -/
structure Maker (σ α S : Type) where
  simple : Nat → Label → σ → S
  merged : Nat → Label → List (S × α) → S

/-- Surrogates as they are. -/
def Maker.plain {σ α : Type} : Maker σ α (Surrogate σ α) := ⟨fun _ => .simple, fun _ => .merged⟩

/-- A component of a merged entry. What cannot be read is an error only when it is needed. -/
structure MergeItem (ε α : Type) where
  name : Except ε String
  multiplier : Except ε α

structure MergedEntry (ε α : Type) where
  code : String
  items : Except ε (List (MergeItem ε α))

inductive ResolveError (ε : Type) where
  | cycle (names : List String)
  | lookup (e : LookupError)
  | entry (e : ε)

def cycleMessage (names : List String) : String :=
  "merged surrogate cycle: " ++ " -> ".intercalate names

section Resolve

variable {σ α ε S : Type}

/-- The number of entries that are not on the way. -/
def untrodden (entries : List (RegistryKey × MergedEntry ε α)) (path : List RegistryKey) : Nat :=
  (entries.filter fun e => !path.contains e.1).length

theorem untrodden_lt {entries : List (RegistryKey × MergedEntry ε α)} {path : List RegistryKey}
    {key : RegistryKey} {entry : MergedEntry ε α} (hpath : ¬ path.contains key = true)
    (hentry : entries.lookup key = some entry) :
    untrodden entries (path ++ [key]) < untrodden entries path := by
  have hfilter : (entries.filter fun e => !(path ++ [key]).contains e.1) =
      (entries.filter fun e => !path.contains e.1).filter fun e => !(path ++ [key]).contains e.1 := by
    rw [List.filter_filter]
    refine List.filter_congr fun e _ => ?_
    cases h : path.contains e.1 <;> simp_all
  obtain ⟨before, after, rfl, -⟩ := List.lookup_eq_some_iff.mp hentry
  rw [untrodden, hfilter]
  refine List.length_filter_lt_length_iff_exists.mpr ⟨(key, entry), ?_, by simp⟩
  exact List.mem_filter.mpr ⟨by simp, by simpa using hpath⟩

mutual

/-- Finds the surrogate of a key, making and adding those it is merged of first. `path` holds the
keys of the entries being made. -/
def resolve (make : Nat → Label → List (S × α) → S)
    (entries : List (RegistryKey × MergedEntry ε α)) (path : List RegistryKey) (key : RegistryKey)
    (r : Register S) : Except (ResolveError ε) (S × Register S) :=
  if _hpath : path.contains key then .error (.cycle ((path ++ [key]).map (·.2)))
  else
    match r.find? key with
    | some s => .ok (s, r)
    | none =>
      match _hentry : entries.lookup key with
      | none => .error (.lookup (.unknownName (.text key.2) (.text key.1)))
      | some entry => do
        let items ← entry.items.mapError .entry
        let (components, r) ← resolveItems make entries (path ++ [key]) key.1 items r
        let label : Label := ⟨key.1, entry.code, key.2⟩
        let s := make r.size label components
        return (s, r.put label s)
termination_by (untrodden entries path, 0)
decreasing_by exact .left _ _ (untrodden_lt _hpath _hentry)

/-- The components of a region, one after the other. -/
def resolveItems (make : Nat → Label → List (S × α) → S)
    (entries : List (RegistryKey × MergedEntry ε α)) (path : List RegistryKey) (region : String) :
    List (MergeItem ε α) → Register S → Except (ResolveError ε) (List (S × α) × Register S)
  | [], r => .ok ([], r)
  | item :: items, r => do
    let name ← item.name.mapError .entry
    let (s, r) ← resolve make entries path (region, name) r
    let factor ← item.multiplier.mapError .entry
    let (components, r) ← resolveItems make entries path region items r
    return ((s, factor) :: components, r)
termination_by items => (untrodden entries path, items.length + 1)
decreasing_by
  · exact .right _ (Nat.succ_pos _)
  · exact .right _ (Nat.lt_succ_self _)

end

/-- A registry of simple surrogates and of those merged of them. -/
def ofEntries (maker : Maker σ α S) (simple : List (Label × σ))
    (merged : List (RegistryKey × MergedEntry ε α)) : Except (ResolveError ε) (Register S) :=
  merged.foldlM (fun r e => (resolve maker.merged merged [] e.1 r).map (·.2))
    (simple.foldl (fun r s => r.put s.1 (maker.simple r.size s.1 s.2)) .empty)

end Resolve

end Registry

end Gridding
