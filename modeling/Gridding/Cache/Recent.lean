import Gridding.Entries
/-!
# Values in order of use

A list of keys with their values, the one not asked for the longest in front.
-/

namespace Gridding

structure Recent (κ α : Type) where
  entries : List (κ × α)
  deriving Repr

namespace Recent

variable {κ α : Type} [BEq κ]

def empty : Recent κ α := ⟨[]⟩

def size (r : Recent κ α) : Nat := r.entries.length

def keys (r : Recent κ α) : List κ := r.entries.map (·.1)

def find? (r : Recent κ α) (key : κ) : Option α := r.entries.lookup key

def contains (r : Recent κ α) (key : κ) : Bool := (r.find? key).isSome

def erase (r : Recent κ α) (key : κ) : Recent κ α := ⟨r.entries.filter fun e => !(e.1 == key)⟩

/-- Moves a key that is there behind all others. -/
def refresh (r : Recent κ α) (key : κ) : Recent κ α :=
  match r.find? key with
  | some a => ⟨(r.erase key).entries ++ [(key, a)]⟩
  | none => r

/-- A new key comes last, a known one keeps its place. -/
def set (r : Recent κ α) (key : κ) (a : α) : Recent κ α := ⟨Entries.put key a r.entries⟩

/-- Gives up the values not asked for the longest, down to a number of them. -/
def keepNewest (r : Recent κ α) (n : Nat) : Recent κ α := ⟨r.entries.drop (r.size - n)⟩

end Recent

end Gridding
