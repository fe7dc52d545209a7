import Gridding.Cache.Recent
/-!
# Functions that remember

A memo keeps the answers of a function by its arguments: none of them, those asked for last or all.
Failures are not kept.
-/

namespace Gridding

inductive Retention where
  | nothing
  /-- The answers asked for last, as many as the capacity says; a negative one is none. -/
  | newest (capacity : Option Int)
  | everything
  deriving DecidableEq, Repr

/-- What is kept, given whether there is a disk to keep it on and whether keeping is turned off. -/
def Retention.chosen (disk disabled : Bool) (capacity : Option Int) : Retention :=
  if disk then .everything else if disabled then .nothing else .newest capacity

structure Memo (κ α : Type) where
  retention : Retention
  kept : Recent κ α
  /-- How often the function was computed. -/
  computed : Nat

namespace Memo

variable {κ α ε : Type} [BEq κ]

def new (retention : Retention) : Memo κ α := ⟨retention, ⟨[]⟩, 0⟩

def keep (retention : Retention) (kept : Recent κ α) (key : κ) (a : α) : Recent κ α :=
  match retention with
  | .nothing => kept
  | .newest (some capacity) => (kept.set key a).keepNewest capacity.toNat
  | .newest none | .everything => kept.set key a

def ask (m : Memo κ α) (key : κ) (f : κ → Except ε α) : Except ε α × Memo κ α :=
  match m.kept.find? key with
  | some a => (.ok a, { m with kept := m.kept.refresh key })
  | none =>
    let m := { m with computed := m.computed + 1 }
    match f key with
    | .error e => (.error e, m)
    | .ok a => (.ok a, { m with kept := keep m.retention m.kept key a })

end Memo

/-- The arguments of a call with those left out, given the defaults of the parameters. -/
def completeArguments {α : Type} (defaults : List (Option α)) (given : List α) : List α :=
  given ++ (defaults.drop given.length).filterMap id

/-- The arguments by which an answer is kept. An unlimited memo goes by all of them, any other by
those that are written in the call. -/
def Retention.key {α : Type} (defaults : List (Option α)) (given : List α) :
    Retention → List α
  | .everything => completeArguments defaults given
  | _ => given

end Gridding
