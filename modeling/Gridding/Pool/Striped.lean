/-!
# Striped work

The items `0, …, n - 1` are dealt to workers like cards: worker `p` of `w` takes `p`, `p + w`,
`p + 2w` and so on. A pool runs the stripes in some order and one observer takes note of finished
stripes. The first failure it sees sets a flag that running workers look at between items; from then
on it cancels stripes that have not started, one at a time; later failures are dropped.

`execute` gives the outcome of a schedule, that is of a list of events, provided the events are
possible and complete. `inOrder` runs one stripe after the other.
-/

namespace Gridding.Striped

/-- Every `step`-th number from `first` on, below `n`. -/
def stripe (n step first : Nat) : List Nat :=
  (List.range ((n - first + step - 1) / step)).map fun k => first + k * step

/-- The number of stripes: at least one and no more than there are items. -/
def stripeCount (items workers : Int) : Nat := (max 1 (min workers items)).toNat

def stripes (items workers : Int) : List (List Nat) :=
  if items ≤ 0 then []
  else
    let count := stripeCount items workers
    (List.range count).map (stripe items.toNat count)

/-- What a worker makes of its stripe, if it sees the flag set after some number of items, or
never. -/
abbrev Worker (ε α : Type) := List Nat → Option Nat → Except ε α

variable {ε α : Type}

inductive Task (ε α : Type) where
  | waiting
  | running
  | done (a : α)
  | failed (e : ε)
  | cancelled

structure State (ε α : Type) where
  tasks : List (Task ε α)
  observed : List Nat
  flag : Bool
  failure : Option ε
  results : List α

inductive Event where
  | start (p : Nat)
  /-- The worker returns or fails; it may have seen the flag before finishing. -/
  | finish (p : Nat) (seenAfter : Option Nat)
  | observe (p : Nat)
  /-- A stripe that has not started is taken out of the pool. -/
  | cancel (p : Nat)
  deriving DecidableEq, Repr

namespace State

def initial (count : Nat) : State ε α := ⟨List.replicate count .waiting, [], false, none, []⟩

/-- The state after an event, if the event is possible. -/
def step (worker : Worker ε α) (all : List (List Nat)) (s : State ε α) : Event → Option (State ε α)
  | .start p =>
    match s.tasks[p]? with
    | some .waiting => some { s with tasks := s.tasks.set p .running }
    | _ => none
  | .finish p seenAfter =>
    match s.tasks[p]?, all[p]? with
    | some .running, some stripe =>
      if seenAfter.isSome && !s.flag then none
      else
        let task : Task ε α := match worker stripe seenAfter with
          | .ok a => .done a
          | .error e => .failed e
        some { s with tasks := s.tasks.set p task }
    | _, _ => none
  | .observe p =>
    if s.observed.contains p then none
    else
      let noted := { s with observed := s.observed ++ [p] }
      match s.tasks[p]? with
      | some (.done a) => some { noted with results := s.results ++ [a] }
      | some (.failed e) =>
        match s.failure with
        | some _ => some noted
        | none => some { noted with failure := some e, flag := true }
      | some .cancelled => some noted
      | _ => none
  | .cancel p =>
    match s.tasks[p]? with
    | some .waiting => if s.flag then some { s with tasks := s.tasks.set p .cancelled } else none
    | _ => none

def outcome (s : State ε α) : Option (Except ε (List α)) :=
  if s.observed.length = s.tasks.length then
    match s.failure with
    | some e => some (.error e)
    | none => some (.ok s.results)
  else none

end State

/-- The outcome of a schedule, if it is possible and complete. -/
def execute (worker : Worker ε α) (items workers : Int) (events : List Event) :
    Option (Except ε (List α)) :=
  let all := stripes items workers
  (events.foldlM (State.step worker all) (State.initial all.length)).bind State.outcome

/-- The outcome if each stripe is run and observed before the next one starts. -/
def inOrder (worker : Worker ε α) (items workers : Int) : Except ε (List α) :=
  (stripes items workers).mapM fun s => worker s none

/-! ## Work item by item -/

variable {β : Type}

/-- What the items of a list give, each with its item, up to the first failure. -/
def visit (f : Nat → Except ε (Option β)) : List Nat → Except ε (List (Nat × β))
  | [] => .ok []
  | i :: is => do
    let b ← f i
    let rest ← visit f is
    return match b with
      | some b => (i, b) :: rest
      | none => rest

/-- A worker that looks at the flag before every item. -/
def itemWorker (f : Nat → Except ε (Option β)) : Worker ε (List (Nat × β)) :=
  fun stripe seenAfter =>
    match seenAfter with
    | some k => visit f (stripe.take k)
    | none => visit f stripe

/-- What all stripes gave, by items. -/
def gather (parts : List (List (Nat × β))) : List (Nat × β) :=
  parts.flatten.mergeSort fun a b => a.1 ≤ b.1

end Gridding.Striped
