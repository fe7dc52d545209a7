import Gridding.Proofs.Cache.Staff
import Gridding.Proofs.Request.Gridder
import Gridding.Request.Calls

/-!
# Calls by several threads

The routine of a call makes the requests that the call is about and no others: the components of a
merged surrogate are computed without a look at the cache, however deep they lie. So threads that
make calls of one gridder with one cache cannot come to wait for each other in a circle.
-/

namespace Gridding

open Cache (Routine Staff)

variable {σ ρ α β ε φ : Type}

section Routines

variable [Zero α] [Add α] [Mul α] {K : String → Prop} {shape : Shape ρ}

/-! ## What routines ask for -/

namespace Surrogate

theorem orderly_routineAll {components : List (Surrogate σ α × α)} {computed : Option String}
    (hcomponents : ∀ c ∈ components,
      ∀ next : Except (ComputationError (SimpleError ε φ)) (Allocation ρ α) → CallRoutine σ ρ α ε φ,
        (∀ r, (next r).Orderly K computed) → (c.1.routine shape next).Orderly K computed)
    {next : Except (ComputationError (SimpleError ε φ)) (List (Allocation ρ α)) →
      CallRoutine σ ρ α ε φ}
    (hnext : ∀ r, (next r).Orderly K computed) :
    (routineAll shape components next).Orderly K computed := by
  induction components generalizing next with
  | nil =>
    rw [routineAll]
    exact hnext _
  | cons c cs ih =>
    obtain ⟨c, m⟩ := c
    rw [routineAll]
    apply hcomponents (c, m) List.mem_cons_self
    intro r
    cases r with
    | error e => exact hnext _
    | ok a =>
      apply ih
      · exact fun c hc => hcomponents c (List.mem_cons_of_mem _ hc)
      · exact fun r => hnext _

/-- The allocation of a surrogate makes no request, unless what comes after it does. -/
theorem orderly_routine (s : Surrogate σ α) {computed : Option String}
    {next : Except (ComputationError (SimpleError ε φ)) (Allocation ρ α) → CallRoutine σ ρ α ε φ}
    (hnext : ∀ r, (next r).Orderly K computed) : (s.routine shape next).Orderly K computed := by
  induction s generalizing next with
  | simple l source =>
    rw [routine]
    exact Routine.orderly_work.mpr fun r => hnext _
  | merged l components ih =>
    rw [routine]
    split
    · exact hnext _
    · apply orderly_routineAll
      · exact fun c hc next hnext => ih c hc hnext
      · intro r
        cases r with
        | error e => exact hnext _
        | ok results => exact hnext _

end Surrogate

namespace Gridder

/-- The keys that a call looks for in the cache. -/
def cacheKeys (g : Gridder σ ρ α β ε) : Call σ ρ α → List String
  | .allocate s shape _ | .gridded s shape => (shape.map (g.cacheKey s)).toList
  | .allocateMany s shapes keys =>
    keys.flatMap fun key => ((shapes.lookup key).map (g.cacheKey s)).toList

variable {g : Gridder σ ρ α β ε} {s : Surrogate σ α}

theorem orderly_requesting {shape : Option (Shape ρ)} {key : Option String}
    {next : Except (RequestError ε φ) (Computed ρ α) → CallRoutine σ ρ α ε φ}
    (hkeys : ∀ k ∈ (shape.map (g.cacheKey s)).toList, K k)
    (hnext : ∀ r, (next r).Orderly K none) : (g.requesting s shape key next).Orderly K none := by
  cases shape with
  | none => exact hnext _
  | some shape =>
    rw [requesting]
    split
    · refine ⟨hkeys _ (by simp), hnext, ?_⟩
      apply s.orderly_routine
      intro r
      exact fun n => ⟨rfl, hnext⟩
    · apply s.orderly_routine
      intro r
      exact fun n => hnext _

theorem orderly_requestingAll {shapes : List (String × Shape ρ)} {keys : List String}
    {done : List (String × Computed ρ α)}
    {next : Except (RequestError ε φ) (List (String × Computed ρ α)) → CallRoutine σ ρ α ε φ}
    (hkeys : ∀ key ∈ keys, ∀ k ∈ ((shapes.lookup key).map (g.cacheKey s)).toList, K k)
    (hnext : ∀ r, (next r).Orderly K none) :
    (g.requestingAll s shapes keys done next).Orderly K none := by
  induction keys generalizing done with
  | nil => exact hnext _
  | cons key keys ih =>
    rw [requestingAll]
    apply orderly_requesting
    · exact hkeys key List.mem_cons_self
    · intro r
      cases r with
      | error e => exact hnext _
      | ok c => exact ih fun key hkey => hkeys key (List.mem_cons_of_mem _ hkey)

variable [One α] [Div α] [BEq α] [Tally α]

theorem orderly_serve (g : Gridder σ ρ α β ε) (c : Call σ ρ α) :
    (g.serve (φ := φ) c).Orderly (· ∈ g.cacheKeys c) none := by
  cases c with
  | allocate s shape key =>
    rw [serve]
    apply orderly_requesting
    · exact fun k hk => hk
    · exact fun r => trivial
  | gridded s shape =>
    rw [serve]
    apply orderly_requesting
    · exact fun k hk => hk
    · intro r
      cases r <;> trivial
  | allocateMany s shapes keys =>
    rw [serve]
    apply orderly_requestingAll
    · exact fun key hkey k hk => List.mem_flatMap.mpr ⟨key, hkey, hk⟩
    · exact fun r => trivial

end Gridder

end Routines

/-! ## Calls without others -/

section Alone

variable [Region ρ α φ] [Zero α] [One α] [Add α] [Mul α] [Div α] [LE α] [LT α] [DecidableLE α]
  [DecidableLT α] [BEq α] [Tally α] {g : Gridder σ ρ α β ε} {s : Surrogate σ α}

namespace Surrogate

variable {shape : Shape ρ} {t : Nat} {cache : Cache String (Computed ρ α)} {d : Desk β}

theorem alone_routineAll {components : List (Surrogate σ α × α)}
    (hcomponents : ∀ c ∈ components, ∀ next d,
      (c.1.routine shape next).alone .cache g.perform t (cache, d) =
        (next (c.1.evaluate (g.allocateSimple (φ := φ) shape) shape.key d).1).alone .cache g.perform t
          (cache, (c.1.evaluate (g.allocateSimple (φ := φ) shape) shape.key d).2))
    (next : Except (ComputationError (SimpleError ε φ)) (List (Allocation ρ α)) →
      CallRoutine σ ρ α ε φ) (d : Desk β) :
    (routineAll shape components next).alone .cache g.perform t (cache, d) =
      (next (evaluateAll (g.allocateSimple shape) shape.key components d).1).alone .cache g.perform t
        (cache, (evaluateAll (g.allocateSimple (φ := φ) shape) shape.key components d).2) := by
  induction components generalizing next d with
  | nil => rfl
  | cons c cs ih =>
    obtain ⟨c, m⟩ := c
    rw [routineAll, hcomponents (c, m) List.mem_cons_self, evaluateAll]
    cases h : c.evaluate (g.allocateSimple (φ := φ) shape) shape.key d with
    | mk r d₁ =>
      cases r with
      | error e => rfl
      | ok a =>
        simp only
        rw [ih fun c hc => hcomponents c (List.mem_cons_of_mem _ hc)]

/-- The routine of a surrogate comes to its evaluation. -/
theorem alone_routine (s : Surrogate σ α)
    (next : Except (ComputationError (SimpleError ε φ)) (Allocation ρ α) → CallRoutine σ ρ α ε φ)
    (d : Desk β) :
    (s.routine shape next).alone .cache g.perform t (cache, d) =
      (next (s.evaluate (g.allocateSimple shape) shape.key d).1).alone .cache g.perform t
        (cache, (s.evaluate (g.allocateSimple (φ := φ) shape) shape.key d).2) := by
  induction s generalizing next d with
  | simple l source => rfl
  | merged l components ih =>
    rw [routine, evaluate]
    split
    · rfl
    · rw [alone_routineAll fun c hc next d => ih c hc next d]
      cases h : evaluateAll (g.allocateSimple (φ := φ) shape) shape.key components d with
      | mk r d₁ => cases r <;> rfl

end Surrogate

namespace Gridder

theorem alone_computing (s : Surrogate σ α) (shape : Shape ρ)
    (next : Except (RequestError ε φ) (Computed ρ α) → CallRoutine σ ρ α ε φ) (t : Nat)
    (cache : Cache String (Computed ρ α)) (d : Desk β) :
    (computing s shape next).alone .cache g.perform t (cache, d) =
      (next (g.compute s shape d).1).alone .cache g.perform t
        (cache, (g.compute (φ := φ) s shape d).2) := by
  rw [computing, s.alone_routine]
  rfl

theorem alone_requesting (shape : Option (Shape ρ)) (key : Option String)
    (next : Except (RequestError ε φ) (Computed ρ α) → CallRoutine σ ρ α ε φ) (w : Shared ρ α β) :
    (g.requesting s shape key next).alone .cache g.perform 0 w =
      (next (g.request s shape key w).1).alone .cache g.perform 0
        (g.request (φ := φ) s shape key w).2 := by
  cases shape with
  | none => rfl
  | some shape =>
    rw [requesting, request]
    split
    · apply Routine.alone_fetch
      intro next w
      exact alone_computing s shape next 0 w.1 w.2
    · exact alone_computing s shape next 0 w.1 w.2

theorem alone_requestingAll (shapes : List (String × Shape ρ)) (keys : List String)
    (done : List (String × Computed ρ α))
    (next : Except (RequestError ε φ) (List (String × Computed ρ α)) → CallRoutine σ ρ α ε φ)
    (w : Shared ρ α β) :
    (g.requestingAll s shapes keys done next).alone .cache g.perform 0 w =
      (next (g.requestAll s shapes keys done w).1).alone .cache g.perform 0
        (g.requestAll (φ := φ) s shapes keys done w).2 := by
  induction keys generalizing done w with
  | nil => rfl
  | cons key keys ih =>
    rw [requestingAll, alone_requesting, requestAll]
    cases h : g.request (φ := φ) s (shapes.lookup key) (some key) w with
    | mk r w₁ =>
      cases r with
      | error e => rfl
      | ok c => exact ih _ _

/-- With nobody else about, a call is answered as the requests for it are. -/
theorem alone_serve (c : Call σ ρ α) (w : Shared ρ α β) :
    (g.serve c).alone .cache g.perform 0 w = g.answer (φ := φ) w c := by
  cases c with
  | allocate s shape key =>
    rw [serve, alone_requesting]
    rfl
  | gridded s shape =>
    rw [serve, alone_requesting, answer, gridded]
    cases h : g.request (φ := φ) s shape none w with
    | mk r w₁ => cases r <;> rfl
  | allocateMany s shapes keys =>
    rw [serve, alone_requestingAll]
    rfl

end Gridder

end Alone

/-! ## Calls by several threads -/

section Threads

variable [Zero α] [One α] [Add α] [Mul α] [Div α] [BEq α] [Tally α]

abbrev CallStaff (σ ρ α ε φ : Type) :=
  Staff String (RequestError ε φ) (Computed ρ α) (Job σ ρ) (Job.Outcome α ε φ) (Reply ρ α ε φ)

abbrev CallMove (σ ρ α ε φ : Type) := Cache.Move (Job σ ρ) (Job.Outcome α ε φ) (Call σ ρ α)

namespace Gridder

/-- How threads stand to each other that have made calls of a gridder with a cache. -/
structure Untangled (g : Gridder σ ρ α β ε) (capacity : Option Int)
    (moves : List (CallMove σ ρ α ε φ)) (s : CallStaff σ ρ α ε φ) : Prop where
  no_chain : ∀ t u v, s.threads.WaitsFor t u → ¬ s.threads.WaitsFor u v
  no_cycle : ∀ t, ¬ Relation.TransGen s.threads.WaitsFor t t
  /-- Who is waited for is computing, without a request, or has only to hand out the answer. -/
  holder : ∀ t u, s.threads.WaitsFor t u →
    (∃ key ticket r, s.threads.frames u = [.computing key ticket] ∧ s.routines u = some r ∧
      r.AsksNothing) ∨ ∃ ticket answer, s.threads.frames u = [.publishing ticket answer]
  not_refused : ∀ t key next compute, s.routines t = some (.ask key next compute) →
    (s.threads.cache.request t key).1 ≠ .refused
  /-- No component leaves anything in the cache. -/
  kept : ∀ e ∈ s.threads.cache.kept.entries, ∃ t c, .call t c ∈ moves ∧ e.1 ∈ g.cacheKeys c
  /-- With room for values, whoever has something to do goes on or waits for one who does. -/
  goes_on : (∀ n, capacity = some n → 0 ≤ n) → ∀ t, s.isOff t = false →
    s.GoesOn .cache g.serve t ∨ ∃ u, s.threads.WaitsFor t u ∧ s.GoesOn .cache g.serve u

/-- Threads that make calls of a gridder do not get tangled up in the cache, whatever they call for
and in whatever order they take turns. -/
theorem untangled {g : Gridder σ ρ α β ε} {capacity : Option Int}
    {moves : List (CallMove σ ρ α ε φ)} {s : CallStaff σ ρ α ε φ}
    (h : (Staff.initial capacity).run .cache g.serve moves = some s) :
    g.Untangled capacity moves s := by
  have hcalls : ∀ t c, .call t c ∈ moves →
      (g.serve (φ := φ) c).Orderly (fun key => ∃ t c, .call t c ∈ moves ∧ key ∈ g.cacheKeys c)
        none := by
    intro t c hc
    apply (orderly_serve g c).mono
    exact fun key hkey => ⟨t, c, hc, hkey⟩
  have hattended := Staff.attended_initial.run hcalls h
  have houtcome : ∀ job : Job σ ρ, Nonempty (Job.Outcome α ε φ job) := by
    intro job
    cases job with
    | allocate l source shape => exact ⟨Except.error (.store .refused)⟩
    | number => exact ⟨(0 : Nat)⟩
  exact {
    no_chain := fun t u v => Staff.not_waitsFor_of_waitsFor hattended.posted
    no_cycle := fun t => Staff.not_transGen_waitsFor hattended.posted
    holder := fun t u => hattended.holder
    not_refused := fun t key next compute => hattended.not_refused
    kept := fun e => hattended.of_kept
    goes_on := fun hcap t => hattended.goesOn_or_waitsFor hcap
      fun job => Classical.choice (houtcome job) }

end Gridder

end Threads

/-! A merged surrogate with a component of its own identifier, called for by two threads. -/

namespace Gridder

def nested : Surrogate (Dataset Mosaic ℚ) ℚ :=
  .merged ⟨"USA", "900", "Outer"⟩ [(.simple ⟨"USA", "900", "Inner"⟩ Mosaic.areas, 1 / 2), (whole, 1)]

/-- The first thread computes one component while the second waits for the whole. -/
def nestedMoves : List (CallMove (Dataset Mosaic ℚ) Mosaic ℚ Empty Empty) :=
  [.call 0 (.allocate nested (some twoSquares) none), .ask 0,
    .call 1 (.gridded nested (some twoSquares)), .ask 1]

theorem untangled_nested : ∃ s,
    (Staff.initial (some 1)).run .cache (ofMosaics 2 1 true).serve nestedMoves = some s ∧
      (ofMosaics 2 1 true).Untangled (some 1) nestedMoves s ∧ s.threads.WaitsFor 1 0 := by
  refine ⟨_, rfl, untangled rfl, 0, ?_, .inl ⟨(ofMosaics 2 1 true).cacheKey nested twoSquares, ?_⟩⟩
  · exact List.mem_cons_self
  · exact List.mem_cons_self

end Gridder

end Gridding
