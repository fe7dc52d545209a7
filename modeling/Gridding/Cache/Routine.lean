import Gridding.Cache.Threads
/-!
# Routines

A routine is what a thread does one step after the other: work of its own, requests to the cache, and
the landing of what it has computed for a request. `alone` follows a routine while nobody else uses
the cache. A `Staff` is a number of threads that follow routines in turns.
-/

namespace Gridding.Cache

/-- What comes of a job is of the type `ω job`; a routine ends with a reply of the type `R`. -/
inductive Routine (κ ε α ι : Type) (ω : ι → Type) (R : Type) where
  | done (reply : R)
  | work (job : ι) (next : ω job → Routine κ ε α ι ω R)
  /-- Goes on with the answer for the key, or with computing it. -/
  | ask (key : κ) (next : Except ε α → Routine κ ε α ι ω R) (compute : Routine κ ε α ι ω R)
  /-- Ends the computation for the key. -/
  | land (key : κ) (answer : Except ε α) (next : Except ε α → Routine κ ε α ι ω R)

variable {κ ε α ι R S C : Type} {ω : ι → Type}

namespace Routine

/-- Gets the value of a key, which is computed if need be. -/
def fetch (key : κ) (compute : (Except ε α → Routine κ ε α ι ω R) → Routine κ ε α ι ω R)
    (next : Except ε α → Routine κ ε α ι ω R) : Routine κ ε α ι ω R :=
  .ask key next (compute fun answer => .land key answer next)

def isDone : Routine κ ε α ι ω R → Bool
  | done _ => true
  | _ => false

/-- The reply of a routine that one thread follows from start to end. -/
def alone [BEq κ] (refuse : CacheError κ → ε) (perform : (job : ι) → S → ω job × S) (thread : Nat) :
    Routine κ ε α ι ω R → Cache κ α × S → R × Cache κ α × S
  | done reply, w => (reply, w)
  | work job next, (c, s) =>
    let (outcome, s) := perform job s
    alone refuse perform thread (next outcome) (c, s)
  | ask key next compute, (c, s) =>
    match c.request thread key with
    | (.found a, c) => alone refuse perform thread (next (.ok a)) (c, s)
    | (.refused, c) => alone refuse perform thread (next (.error (refuse (.reentrant key)))) (c, s)
    | (.joined _, c) => alone refuse perform thread (next (.error (refuse (.pending key)))) (c, s)
    | (.started _, c) => alone refuse perform thread compute (c, s)
  | land key answer next, (c, s) =>
    let (answer, c) := Cache.land refuse key answer c
    alone refuse perform thread (next answer) (c, s)

end Routine

structure Staff (κ ε α ι : Type) (ω : ι → Type) (R : Type) where
  threads : Threads κ ε α
  /-- What is left of the routines that threads follow. -/
  routines : Nat → Option (Routine κ ε α ι ω R)

inductive Move (ι : Type) (ω : ι → Type) (C : Type) where
  | call (thread : Nat) (c : C)
  /-- Does a job, of which anything can come. -/
  | work (thread : Nat) (outcome : (job : ι) → ω job)
  | ask (thread : Nat)
  | land (thread : Nat)
  | publish (thread : Nat)
  | receive (thread : Nat)

namespace Staff

def initial (capacity : Option Int) : Staff κ ε α ι ω R := ⟨Threads.initial capacity, fun _ => none⟩

def setRoutine (s : Staff κ ε α ι ω R) (thread : Nat) (r : Routine κ ε α ι ω R) :
    Staff κ ε α ι ω R :=
  { s with routines := fun t => if t = thread then some r else s.routines t }

/-- Has a thread nothing to do? -/
def isOff (s : Staff κ ε α ι ω R) (thread : Nat) : Bool :=
  match s.routines thread with
  | none => true
  | some r => r.isDone

variable [BEq κ]

/-- The end of a computation as a turn of its thread. -/
def landing (thread : Nat) : Except ε α → Turn κ ε α
  | .ok a => .succeed thread a
  | .error e => .fail thread e

/-- Why a value cannot be kept, if it cannot. -/
def refusal? (c : Cache κ α) (key : κ) : Except ε α → Option (CacheError κ)
  | .ok a =>
    match (c.settle key a).1 with
    | .ok _ => none
    | .error e => some e
  | .error _ => none

/-- A thread with nothing to do takes a call; any other one makes the next step of its routine. -/
def step (refuse : CacheError κ → ε) (serve : C → Routine κ ε α ι ω R) (s : Staff κ ε α ι ω R) :
    Move ι ω C → Option (Staff κ ε α ι ω R)
  | .call t c => if s.isOff t then some (s.setRoutine t (serve c)) else none
  | .work t outcome =>
    match s.routines t with
    | some (.work job next) => some (s.setRoutine t (next (outcome job)))
    | _ => none
  | .ask t =>
    match s.routines t with
    | some (.ask key next compute) =>
      (s.threads.step (.request t key)).map fun threads =>
        { s with threads }.setRoutine t (match (s.threads.cache.request t key).1 with
          | .found a => next (.ok a)
          | .refused => next (.error (refuse (.reentrant key)))
          | .joined _ => .ask key next compute
          | .started _ => compute)
    | _ => none
  | .land t =>
    match s.routines t with
    | some (.land key answer next) =>
      (s.threads.step (landing t answer)).map fun threads =>
        { s with threads }.setRoutine t (match refusal? s.threads.cache key answer with
          | none => .land key answer next
          | some e => next (.error (refuse e)))
    | _ => none
  | .publish t =>
    match s.routines t with
    | some (.land _ answer next) =>
      (s.threads.step (.publish t)).map fun threads => { s with threads }.setRoutine t (next answer)
    | _ => none
  | .receive t =>
    match s.routines t, s.threads.frames t with
    | some (.ask _ next _), .waiting ticket :: _ =>
      (s.threads.answers.lookup ticket).bind fun answer =>
        (s.threads.step (.receive t)).map fun threads =>
          { s with threads }.setRoutine t (next answer)
    | _, _ => none

def run (refuse : CacheError κ → ε) (serve : C → Routine κ ε α ι ω R) (s : Staff κ ε α ι ω R)
    (moves : List (Move ι ω C)) : Option (Staff κ ε α ι ω R) :=
  moves.foldlM (step refuse serve) s

end Staff

end Gridding.Cache
