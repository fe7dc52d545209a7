import Gridding.Proofs.Request.Calls
import Gridding.Proofs.Request.Course

/-!
# Requests that fail

A request fails if a node of its surrogate does, with an error that names the first one and its
cause. Nothing behind this node is tried, and nothing is kept, so the next request starts anew.
-/

namespace Gridding

open Cache (Routine)

variable {σ ρ α β ε φ S R : Type}

/-! ## Jobs -/

namespace Cache.Routine

variable {κ ι : Type} {ω : ι → Type} [BEq κ]

/-- The jobs that one thread does which follows a routine from start to end. -/
def jobs (refuse : CacheError κ → ε) (perform : (job : ι) → S → ω job × S) (thread : Nat) :
    Routine κ ε α ι ω R → Cache κ α × S → List ι
  | done _, _ => []
  | work job next, (c, s) =>
    let (outcome, s) := perform job s
    job :: jobs refuse perform thread (next outcome) (c, s)
  | ask key next compute, (c, s) =>
    match c.request thread key with
    | (.found a, c) => jobs refuse perform thread (next (.ok a)) (c, s)
    | (.refused, c) => jobs refuse perform thread (next (.error (refuse (.reentrant key)))) (c, s)
    | (.joined _, c) => jobs refuse perform thread (next (.error (refuse (.pending key)))) (c, s)
    | (.started _, c) => jobs refuse perform thread compute (c, s)
  | land key answer next, (c, s) =>
    let (answer, c) := Cache.land refuse key answer c
    jobs refuse perform thread (next answer) (c, s)

end Cache.Routine

namespace Surrogate

/-- The job a node is tried by; a merged one has nothing of its own to do. -/
def job? (shape : Shape ρ) : Surrogate σ α → Option (Job σ ρ)
  | simple l source => some (.allocate l source shape)
  | merged _ _ => none

variable [Region ρ α φ] [Zero α] [One α] [Add α] [Mul α] [Div α] [LE α] [LT α] [DecidableLE α]
  [DecidableLT α] [BEq α] [Tally α] {g : Gridder σ ρ α β ε} {shape : Shape ρ} {t : Nat}
  {cache : Cache String (Computed ρ α)}

omit [Add α] in
theorem place_of_allocateSimple {l : Label} {source : σ} {d d' : Desk β} {a : Allocation ρ α}
    (h : g.allocateSimple (φ := φ) shape l source d = (.ok a, d')) :
    a.setting = (g.grid.nx, g.grid.ny, some shape) := by
  rw [Gridder.allocateSimple] at h
  split at h
  case h_1 => cases h
  case h_2 data d₁ hdata =>
    obtain ⟨ha, -⟩ := Prod.mk.inj h
    exact setting_of_allocate (mapError_eq_ok.mp ha)

theorem evaluate_endsIn_course (g : Gridder σ ρ α β ε) (shape : Shape ρ) (s : Surrogate σ α)
    (d : Desk β) :
    (course (g.allocateSimple (φ := φ) shape) s.nodes d).EndsIn shape.key
      (·.setting = (g.grid.nx, g.grid.ny, some shape))
      (s.evaluate (g.allocateSimple shape) shape.key d) :=
  s.evaluate_endsIn (fun _ _ _ _ _ => place_of_allocateSimple) d

theorem jobs_routineAll {components : List (Surrogate σ α × α)}
    (hcomponents : ∀ c ∈ components, ∀ next d,
      (c.1.routine shape next).jobs .cache g.perform t (cache, d) =
        (course (g.allocateSimple (φ := φ) shape) c.1.nodes d).tried.filterMap (job? shape) ++
          (next (c.1.evaluate (g.allocateSimple shape) shape.key d).1).jobs .cache g.perform t
            (cache, (c.1.evaluate (g.allocateSimple (φ := φ) shape) shape.key d).2))
    (next : Except (ComputationError (SimpleError ε φ)) (List (Allocation ρ α)) →
      CallRoutine σ ρ α ε φ) (d : Desk β) :
    (routineAll shape components next).jobs .cache g.perform t (cache, d) =
      (course (g.allocateSimple (φ := φ) shape) (nodesOfAll components) d).tried.filterMap
          (job? shape) ++
        (next (evaluateAll (g.allocateSimple shape) shape.key components d).1).jobs .cache g.perform
          t (cache, (evaluateAll (g.allocateSimple (φ := φ) shape) shape.key components d).2) := by
  induction components generalizing next d with
  | nil => rfl
  | cons c cs ih =>
    obtain ⟨c, m⟩ := c
    have hends := evaluate_endsIn_course (φ := φ) g shape c d
    rw [routineAll, hcomponents (c, m) List.mem_cons_self, evaluateAll, nodesOfAll, course_append]
    cases hcourse : (course (g.allocateSimple (φ := φ) shape) c.nodes d).failure with
    | some f =>
      rw [Course.andThen_of_failure hcourse, (Course.endsIn_of_failure hcourse).mp hends]
    | none =>
      obtain ⟨a, ha, -⟩ := (Course.endsIn_of_passed hcourse).mp hends
      rw [Course.andThen_of_passed hcourse, ha]
      simp only
      rw [ih fun c hc => hcomponents c (List.mem_cons_of_mem _ hc), List.filterMap_append,
        List.append_assoc]

/-- The jobs of a surrogate's routine are those of the nodes that are tried. -/
theorem jobs_routine (s : Surrogate σ α)
    (next : Except (ComputationError (SimpleError ε φ)) (Allocation ρ α) → CallRoutine σ ρ α ε φ)
    (d : Desk β) :
    (s.routine shape next).jobs .cache g.perform t (cache, d) =
      (course (g.allocateSimple (φ := φ) shape) s.nodes d).tried.filterMap (job? shape) ++
        (next (s.evaluate (g.allocateSimple shape) shape.key d).1).jobs .cache g.perform t
          (cache, (s.evaluate (g.allocateSimple (φ := φ) shape) shape.key d).2) := by
  induction s generalizing next d with
  | simple l source =>
    cases hsimple : g.allocateSimple (φ := φ) shape l source d with
    | mk r d' =>
      cases r <;> simp [routine, Routine.jobs, nodes, evaluate, trial, attempt, Gridder.perform,
        hsimple, Course.andThen, course, job?]
  | merged l components ih =>
    rw [routine, evaluate]
    split
    case isTrue hnone => simp [nodes, course, trial, attempt, hnone, Course.andThen, job?]
    case isFalse hsome =>
      rw [course_nodes_merged hsome, jobs_routineAll fun c hc next d => ih c hc next d]
      refine congrArg₂ (· ++ ·) rfl ?_
      cases h : evaluateAll (g.allocateSimple (φ := φ) shape) shape.key components d with
      | mk r d₁ => cases r <;> rfl

end Surrogate

/-! ## Requests -/

namespace Gridder

section Requests

variable [Region ρ α φ] [Zero α] [One α] [Add α] [Mul α] [Div α] [LE α] [LT α] [DecidableLE α]
  [DecidableLT α] [BEq α] [Tally α] {g : Gridder σ ρ α β ε} {s : Surrogate σ α} {shape : Shape ρ}
  {cache : Cache String (Computed ρ α)} {d d' : Desk β}

/-- What a request would find in the cache. -/
def keptFor (g : Gridder σ ρ α β ε) (s : Surrogate σ α) (shape : Shape ρ)
    (cache : Cache String (Computed ρ α)) : Option (Computed ρ α) :=
  if g.caches then cache.kept.find? (g.cacheKey s shape) else none

/-- Nobody is computing the value of a request. -/
def Idle (g : Gridder σ ρ α β ε) (s : Surrogate σ α) (shape : Shape ρ)
    (cache : Cache String (Computed ρ α)) : Prop :=
  g.caches = true → cache.flights.lookup (g.cacheKey s shape) = none

omit [Add α] in
theorem allocateSimple_state (h : g.stores = false) (l : Label) (source : σ) (d : Desk β) :
    (g.allocateSimple (φ := φ) shape l source d).2 = d := by
  rw [allocateSimple, dataset, h]
  cases g.granules l source shape <;> rfl

theorem compute_of_failure {n : Surrogate σ α} {cause : Cause (SimpleError ε φ)}
    (h : (Surrogate.course (g.allocateSimple shape) s.nodes d).failure = some (n, cause)) :
    g.compute s shape d = (.error (.computation ⟨n.label.identifier, shape.key, cause⟩),
      let d' := (Surrogate.course (g.allocateSimple (φ := φ) shape) s.nodes d).state
      { d' with runs := d'.runs + 1 }) := by
  rw [compute, (Surrogate.Course.endsIn_of_failure h).mp (s.evaluate_endsIn_course g shape d)]
  rfl

theorem compute_of_passed
    (h : (Surrogate.course (g.allocateSimple (φ := φ) shape) s.nodes d).failure = none) :
    ∃ c, (g.compute s shape d).1 = .ok c := by
  obtain ⟨a, ha, -⟩ := (Surrogate.Course.endsIn_of_passed h).mp (s.evaluate_endsIn_course g shape d)
  rw [compute, ha]
  exact ⟨_, rfl⟩

theorem jobs_computing (next : Except (RequestError ε φ) (Computed ρ α) → CallRoutine σ ρ α ε φ) :
    (computing s shape next).jobs .cache g.perform 0 (cache, d) =
      (Surrogate.course (g.allocateSimple (φ := φ) shape) s.nodes d).tried.filterMap
          (Surrogate.job? shape) ++
        .number :: (next (g.compute s shape d).1).jobs .cache g.perform 0
          (cache, (g.compute (φ := φ) s shape d).2) := by
  rw [computing, Surrogate.jobs_routine]
  rfl

section Request

variable (key : Option String)

/-- A value that is kept is handed out without any job. -/
theorem request_of_kept {c : Computed ρ α} (h : g.keptFor s shape cache = some c) :
    (g.request s (some shape) key (cache, d)).1 = .ok c ∧
      (g.serve (.allocate s (some shape) key)).jobs .cache g.perform 0 (cache, d) = [] := by
  rw [keptFor] at h
  split at h
  case isFalse => cases h
  case isTrue hcaches =>
    rw [request, if_pos hcaches, serve, requesting, if_pos hcaches]
    refine ⟨Cache.fetch_of_kept h, ?_⟩
    rw [Routine.fetch, Routine.jobs, Cache.request, h]
    rfl

/-- A value that is not kept is computed by the jobs of the nodes that are tried. -/
theorem jobs_of_not_kept (hkept : g.keptFor s shape cache = none) (hidle : g.Idle s shape cache) :
    (g.serve (.allocate s (some shape) key)).jobs .cache g.perform 0 (cache, d) =
      (Surrogate.course (g.allocateSimple (φ := φ) shape) s.nodes d).tried.filterMap
        (Surrogate.job? shape) ++ [.number] := by
  rw [serve, requesting]
  split
  case isFalse => rw [jobs_computing]; rfl
  case isTrue hcaches =>
    rw [keptFor, if_pos hcaches] at hkept
    rw [Routine.fetch, Routine.jobs, Cache.request, hkept, hidle hcaches]
    simp only
    rw [jobs_computing]
    rfl

theorem request_of_failure (hkept : g.keptFor s shape cache = none) (hidle : g.Idle s shape cache)
    {e : RequestError ε φ} (h : g.compute s shape d = (.error e, d')) :
    ∃ cache', g.request s (some shape) key (cache, d) = (.error e, cache', d') ∧
      cache'.kept = cache.kept ∧ g.Idle s shape cache' ∧ cache'.capacity = cache.capacity := by
  rw [request]
  split
  case isFalse => exact ⟨cache, by simp only [h], rfl, hidle, rfl⟩
  case isTrue hcaches =>
    rw [keptFor, if_pos hcaches] at hkept
    rw [Cache.fetch, Cache.request, hkept, hidle hcaches]
    simp only [h]
    -- The flight is given up, and nothing else changes.
    refine ⟨_, rfl, rfl, ?_, rfl⟩
    intro _
    refine lookup_eq_none_iff_forall_ne.mpr fun f hf => ?_
    simpa using (List.mem_filter.mp hf).2

theorem request_of_success (hkept : g.keptFor s shape cache = none) (hidle : g.Idle s shape cache)
    (hroom : g.caches = true → ∀ n, cache.capacity = some n → 0 ≤ n)
    {c : Computed ρ α} (h : (g.compute s shape d).1 = .ok c) :
    (g.request s (some shape) key (cache, d)).1 = .ok c := by
  rw [request]
  split
  case isFalse => exact h
  case isTrue hcaches =>
    rw [keptFor, if_pos hcaches] at hkept
    exact Cache.fetch_of_idle hkept (hidle hcaches) (hroom hcaches) fun _ =>
      ⟨(g.compute s shape d).2, by simp only [h]⟩

theorem request_fails_iff (hidle : g.Idle s shape cache)
    (hroom : g.caches = true → ∀ n, cache.capacity = some n → 0 ≤ n) :
    (∃ e, (g.request s (some shape) key (cache, d)).1 = .error e) ↔
      g.keptFor s shape cache = none ∧ ∃ before n cause d',
        s.FailsFirst (g.allocateSimple shape) d before n cause d' := by
  rw [Surrogate.exists_failsFirst_iff]
  cases hkept : g.keptFor s shape cache with
  | some c => simp [(request_of_kept key hkept).1]
  | none =>
    cases hcourse : (Surrogate.course (g.allocateSimple shape) s.nodes d).failure with
    | some f =>
      obtain ⟨cache', hrequest, -⟩ :=
        request_of_failure key hkept hidle (compute_of_failure hcourse)
      simp [hrequest]
    | none =>
      obtain ⟨c, hc⟩ := compute_of_passed hcourse
      simp [request_of_success key hkept hidle hroom hc]

theorem request_computes (hkept : g.keptFor s shape cache = none) (hidle : g.Idle s shape cache)
    (hroom : g.caches = true → ∀ n, cache.capacity = some n → 0 ≤ n) :
    (g.request s (some shape) key (cache, d)).1 = (g.compute s shape d).1 := by
  cases hcompute : g.compute s shape d with
  | mk r d' =>
    cases r with
    | error e =>
      obtain ⟨cache', hrequest, -⟩ := request_of_failure key hkept hidle hcompute
      rw [hrequest]
    | ok c => exact request_of_success key hkept hidle hroom (congrArg Prod.fst hcompute)

end Request

/-- A request fails if and only if its value is not kept and some node of the surrogate fails. Then
the error names the first node that does, in the order of `Surrogate.nodes`, and the cause it has
there; no job is done for a node behind it; what is kept stays as it is; and the next request is
answered by what is computed then. -/
theorem request_fails_at_first (key : Option String) (d : Desk β) (hidle : g.Idle s shape cache)
    (hroom : g.caches = true → ∀ n, cache.capacity = some n → 0 ≤ n) :
    ((∃ e, (g.request s (some shape) key (cache, d)).1 = .error e) ↔
      g.keptFor s shape cache = none ∧
        ∃ before n cause d', s.FailsFirst (g.allocateSimple shape) d before n cause d') ∧
    (g.stores = false →
      ((∃ before n cause d', s.FailsFirst (g.allocateSimple shape) d before n cause d') ↔
        ∃ n ∈ s.nodes, ∃ cause, (n.attempt (g.allocateSimple shape) d).1 = some cause)) ∧
    ∀ before n cause d', g.keptFor s shape cache = none →
      s.FailsFirst (g.allocateSimple shape) d before n cause d' →
        (g.serve (.allocate s (some shape) key)).jobs .cache g.perform 0 (cache, d) =
          (before ++ [n]).filterMap (Surrogate.job? shape) ++ [.number] ∧
        ∃ cache', g.request s (some shape) key (cache, d) =
            (.error (.computation ⟨n.label.identifier, shape.key, cause⟩), cache',
              { d' with runs := d'.runs + 1 }) ∧
          cache'.kept = cache.kept ∧
          ∀ key' d₂, (g.request s (some shape) key' (cache', d₂)).1 = (g.compute s shape d₂).1 ∧
            (g.serve (.allocate s (some shape) key')).jobs .cache g.perform 0 (cache', d₂) =
              (Surrogate.course (g.allocateSimple (φ := φ) shape) s.nodes d₂).tried.filterMap
                (Surrogate.job? shape) ++ [.number] := by
  refine ⟨request_fails_iff key hidle hroom, fun hstores => ?_,
    fun before n cause d' hkept hfirst => ?_⟩
  · rw [Surrogate.exists_failsFirst_iff]
    exact Surrogate.exists_failure_iff (allocateSimple_state hstores)
  · have hcourse := hfirst.course_eq
    have hfailure := congrArg Surrogate.Course.failure hcourse
    obtain ⟨cache', hrequest, hsame, hidle', hcapacity⟩ :=
      request_of_failure key hkept hidle (compute_of_failure hfailure)
    have hkept' : g.keptFor s shape cache' = none := by rw [keptFor, hsame, ← keptFor, hkept]
    have hroom' : g.caches = true → ∀ n, cache'.capacity = some n → 0 ≤ n := by rwa [hcapacity]
    refine ⟨?_, cache', ?_, hsame, fun key' d₂ => ⟨?_, ?_⟩⟩
    · rw [jobs_of_not_kept key hkept hidle, hcourse]
    · rw [hrequest, hcourse]
    · exact request_computes key' hkept' hidle' hroom'
    · exact jobs_of_not_kept key' hkept' hidle'

end Requests

/-- A gridder of datasets of mosaics that may be missing. -/
def ofSources (caches : Bool) :
    Gridder (Except String (Dataset Mosaic ℚ)) Mosaic ℚ Unit String where
  grid := Mosaic.grid 2 1
  workers := 2
  tolerance := "0"
  granules _ source _ := source
  encode _ := []
  decode _ := .error "nothing is stored"
  caches := caches
  stores := false

def present : Surrogate (Except String (Dataset Mosaic ℚ)) ℚ :=
  .simple ⟨"USA", "100", "Present"⟩ (.ok Mosaic.areas)

def missing (code reason : String) : Surrogate (Except String (Dataset Mosaic ℚ)) ℚ :=
  .simple ⟨"USA", code, "Missing"⟩ (.error reason)

/-- Three nodes of it fail, two of them inside merged surrogates. -/
def brittle : Surrogate (Except String (Dataset Mosaic ℚ)) ℚ :=
  .merged ⟨"USA", "900", "Brittle"⟩
    [(present, 1),
      (.merged ⟨"USA", "800", "Inner"⟩ [(missing "200" "gone", 1), (present, 2)], 1 / 2),
      (missing "300" "lost", 1), (.merged ⟨"USA", "700", "Empty"⟩ [], 1)]

theorem request_brittle : ∃ cache',
    (ofSources true).request brittle (some twoSquares) none (Cache.empty (some 1), ⟨.empty, 0⟩) =
        (.error (.computation ⟨"USA200", "S", .simple (.source "gone")⟩), cache', ⟨.empty, 1⟩) ∧
      cache'.kept = ⟨[]⟩ := by
  obtain ⟨a, ha, -⟩ : ∃ a, allocate 2 twoSquares (Mosaic.grid 2 1) Mosaic.areas = .ok a ∧ _ :=
    Engine.exists_allocation Mosaic.measured.toPlaced 2 twoSquares (Mosaic.grid 2 1)
      (Mosaic.measured.isGauged (by decide)) (by decide)
  have hpresent : ∀ l d, (ofSources true).allocateSimple twoSquares l (.ok Mosaic.areas) d =
      (.ok a, d) := fun l d => allocateSimple_of_allocate rfl rfl ha d
  have hfirst : brittle.FailsFirst ((ofSources true).allocateSimple twoSquares) ⟨.empty, 0⟩
      [brittle, present, .merged ⟨"USA", "800", "Inner"⟩ [(missing "200" "gone", 1), (present, 2)]]
      (missing "200" "gone") (.simple (.source "gone")) ⟨.empty, 0⟩ := by
    refine ⟨⟨_, rfl⟩, ?_, ?_⟩
    · simp [Surrogate.course, Surrogate.trial, Surrogate.attempt, Surrogate.Course.andThen, brittle,
        present, hpresent]
    · simp [Surrogate.course, Surrogate.trial, Surrogate.attempt, Surrogate.Course.andThen, brittle,
        present, missing, hpresent]
      rfl
  have hidle : (ofSources true).Idle brittle twoSquares (Cache.empty (some 1)) := fun _ => rfl
  obtain ⟨-, -, hfails⟩ := request_fails_at_first none ⟨.empty, 0⟩ hidle (by simp [Cache.empty])
  obtain ⟨-, cache', hrequest, hkept, -⟩ := hfails _ _ _ _ rfl hfirst
  exact ⟨cache', hrequest, hkept⟩

end Gridder

end Gridding
