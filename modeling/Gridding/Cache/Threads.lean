import Gridding.Cache.SingleFlight
/-!
# Threads that share a cache

A thread is a stack of what it is in the middle of: computations, each one begun by the one below
it, and on top perhaps an answer to be handed out or waited for. `step` makes one uninterrupted step
of one thread; an order of such steps is an order in which threads may take turns.
-/

namespace Gridding.Cache

inductive Frame (κ ε α : Type) where
  | computing (key : κ) (ticket : Nat)
  /-- The flight has ended and those who joined it do not yet have its answer. -/
  | publishing (ticket : Nat) (answer : Except ε α)
  | waiting (ticket : Nat)

structure Threads (κ ε α : Type) where
  cache : Cache κ α
  frames : Nat → List (Frame κ ε α)
  /-- The answers of flights, by ticket. -/
  answers : List (Nat × Except ε α)

inductive Turn (κ ε α : Type) where
  | request (thread : Nat) (key : κ)
  | succeed (thread : Nat) (a : α)
  | fail (thread : Nat) (e : ε)
  | publish (thread : Nat)
  | receive (thread : Nat)
  | invalidate (key : κ)
  | clear

namespace Threads

variable {κ ε α : Type} [BEq κ]

def initial (capacity : Option Int) : Threads κ ε α := ⟨Cache.empty capacity, fun _ => [], []⟩

def setFrames (s : Threads κ ε α) (thread : Nat) (fs : List (Frame κ ε α)) : Threads κ ε α :=
  { s with frames := fun t => if t = thread then fs else s.frames t }

/-- Only a thread that is not held up can make a request. -/
def isFree : List (Frame κ ε α) → Bool
  | [] | .computing _ _ :: _ => true
  | _ => false

def step (s : Threads κ ε α) : Turn κ ε α → Option (Threads κ ε α)
  | .request t key =>
    if isFree (s.frames t) then
      let (admission, cache) := s.cache.request t key
      let s := { s with cache }
      some (match admission with
        | .found _ | .refused => s
        | .joined ticket => s.setFrames t (.waiting ticket :: s.frames t)
        | .started ticket => s.setFrames t (.computing key ticket :: s.frames t))
    else none
  | .succeed t a =>
    match s.frames t with
    | .computing key ticket :: below =>
      let (settled, cache) := s.cache.settle key a
      let s := { s with cache }
      some (match settled with
        | .ok _ => s.setFrames t (.publishing ticket (.ok a) :: below)
        | .error _ => s.setFrames t below)
    | _ => none
  | .fail t e =>
    match s.frames t with
    | .computing key ticket :: below =>
      let s := { s with cache := s.cache.abandon key }
      some (s.setFrames t (.publishing ticket (.error e) :: below))
    | _ => none
  | .publish t =>
    match s.frames t with
    | .publishing ticket answer :: below =>
      some ({ s with answers := (ticket, answer) :: s.answers }.setFrames t below)
    | _ => none
  | .receive t =>
    match s.frames t with
    | .waiting ticket :: below =>
      (s.answers.lookup ticket).map fun _ => s.setFrames t below
    | _ => none
  | .invalidate key => some { s with cache := s.cache.invalidate key }
  | .clear => some { s with cache := s.cache.clear }

/-- The state after some turns, if each is possible when it comes. -/
def run (s : Threads κ ε α) (turns : List (Turn κ ε α)) : Option (Threads κ ε α) :=
  turns.foldlM step s

end Threads

end Gridding.Cache
