import Gridding.Cache.Recent
/-!
# A cache that computes each value once

A request for a kept value is answered at once. Otherwise the first thread to ask for a key takes
off to compute it, and a thread that asks while the flight lasts joins it and gets the same answer.
A thread that asks for a key it is itself computing is refused, since it would wait for itself.
Failures are not kept.

`request`, `settle`, `abandon`, `invalidate` and `clear` are what happens without interruption by
other threads; computing and handing out the answer lie between them. `fetch` puts them together for
one thread and `fetchTogether` for several that ask at the same time.
-/

namespace Gridding

structure Flight where
  owner : Nat
  /-- The number of flights before this one, which tells it from all others. -/
  ticket : Nat
  deriving DecidableEq, Repr

structure Cache (κ α : Type) where
  /-- How many values are kept, if there is a limit. -/
  capacity : Option Int
  kept : Recent κ α
  flights : List (κ × Flight)
  hits : Nat
  misses : Nat
  deriving Repr

inductive CacheError (κ : Type) where
  | reentrant (key : κ)
  /-- Another thread is computing the value. -/
  | pending (key : κ)
  /-- No number of evictions brings the size below zero. -/
  | negativeCapacity
  deriving DecidableEq, Repr

/-- The message about a request that would wait for itself, for a key as it is quoted. -/
def CacheError.reentrantMessage (key : String) : String :=
  "re-entrant request for cache key " ++ key

/-- What becomes of a request. -/
inductive Admission (α : Type) where
  | found (a : α)
  | refused
  | joined (ticket : Nat)
  | started (ticket : Nat)
  deriving DecidableEq, Repr

namespace Cache

variable {κ α : Type}

def empty (capacity : Option Int) : Cache κ α := ⟨capacity, ⟨[]⟩, [], 0, 0⟩

def size (c : Cache κ α) : Nat := c.kept.size

variable [BEq κ]

def contains (c : Cache κ α) (key : κ) : Bool := c.kept.contains key

def request (c : Cache κ α) (thread : Nat) (key : κ) : Admission α × Cache κ α :=
  match c.kept.find? key with
  | some a => (.found a, { c with kept := c.kept.refresh key, hits := c.hits + 1 })
  | none =>
    match c.flights.lookup key with
    | some f =>
      if f.owner == thread then (.refused, c)
      else (.joined f.ticket, { c with hits := c.hits + 1 })
    | none =>
      let f : Flight := ⟨thread, c.misses⟩
      (.started f.ticket, { c with flights := (key, f) :: c.flights, misses := c.misses + 1 })

/-- Ends a flight without a value. -/
def abandon (c : Cache κ α) (key : κ) : Cache κ α :=
  { c with flights := c.flights.filter fun f => !(f.1 == key) }

/-- Gives up values until no more are left than the capacity allows, if that can be. -/
def evict (c : Cache κ α) : Except (CacheError κ) Unit × Cache κ α :=
  match c.capacity with
  | none => (.ok (), c)
  | some n =>
    let trimmed := { c with kept := c.kept.keepNewest n.toNat }
    (if n < 0 then .error .negativeCapacity else .ok (), trimmed)

/-- Ends a flight with a value and makes room for it. -/
def settle (c : Cache κ α) (key : κ) (a : α) : Except (CacheError κ) Unit × Cache κ α :=
  let landed := c.abandon key
  evict { landed with kept := landed.kept.set key a }

def invalidate (c : Cache κ α) (key : κ) : Cache κ α := { c with kept := c.kept.erase key }

def clear (c : Cache κ α) : Cache κ α := { c with kept := ⟨[]⟩ }

section Fetch

variable {σ ε : Type}

/-- Ends the flight of a key as its computation did. -/
def land (refuse : CacheError κ → ε) (key : κ) (r : Except ε α) (c : Cache κ α) :
    Except ε α × Cache κ α :=
  match r with
  | .error e => (.error e, c.abandon key)
  | .ok a =>
    match c.settle key a with
    | (.ok _, c) => (.ok a, c)
    | (.error e, c) => (.error (refuse e), c)

/-- A computation that may use the cache and changes a state of its own. -/
abbrev Action (κ α σ ε : Type) := Cache κ α × σ → Except ε α × Cache κ α × σ

variable (refuse : CacheError κ → ε)

/-- What one thread gets for a key. -/
def fetch (thread : Nat) (key : κ) (compute : Action κ α σ ε) : Action κ α σ ε := fun (c, s) =>
  match c.request thread key with
  | (.found a, c) => (.ok a, c, s)
  | (.refused, c) => (.error (refuse (.reentrant key)), c, s)
  | (.joined _, c) => (.error (refuse (.pending key)), c, s)
  | (.started _, c) =>
    let (r, c, s) := compute (c, s)
    let (r, c) := land refuse key r c
    (r, c, s)

/-- The state after some threads asked for a key. -/
def requestAll (threads : List Nat) (key : κ) (c : Cache κ α) : Cache κ α :=
  threads.foldl (fun c t => (c.request t key).2) c

/-- What a thread gets for a key, and with it each of the others that ask after it has and before
it is done. -/
def fetchTogether (thread : Nat) (others : List Nat) (key : κ) (compute : Action κ α σ ε)
    (c : Cache κ α) (s : σ) : List (Except ε α) × Cache κ α × σ :=
  let found := c.contains key
  let joining : Action κ α σ ε := fun (c, s) => compute (requestAll others key c, s)
  let (r, c, s) := fetch refuse thread key joining (c, s)
  (r :: others.map fun _ => r, if found then requestAll others key c else c, s)

end Fetch

end Cache

end Gridding
