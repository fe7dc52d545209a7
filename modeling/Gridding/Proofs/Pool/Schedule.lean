import Gridding.Proofs.Fallible
import Gridding.Proofs.Pool.Stripes
import Mathlib.Data.List.Perm.Subperm

/-!
# What a schedule can come to

`State.Sound` is kept by every event: as long as no failure has been seen, finished stripes have
done all their work, none is cancelled, and the results so far are those of the stripes observed so
far. Hence the results of a complete schedule are those of all stripes in some order, and a failure
is one that some stripe has on its own.
-/

namespace Gridding.Striped

variable {ε α : Type} {worker : Worker ε α} {all : List (List Nat)} {s s' : State ε α}

/-- Finished or cancelled. -/
def Task.IsOver : Task ε α → Prop
  | .waiting => False
  | .running => False
  | _ => True

/-- Does a task stand for work that came to this outcome, as far as it is finished? -/
def Task.Accords : Task ε α → Except ε α → Prop
  | .waiting, _ => True
  | .running, _ => True
  | .done a, r => r = .ok a
  | .failed e, r => r = .error e
  | .cancelled, _ => False

namespace State

/-! ## What an event can do -/

theorem step_start {p : Nat} (h : step worker all s (.start p) = some s') :
    s.tasks[p]? = some .waiting ∧ s' = { s with tasks := s.tasks.set p .running } := by
  simp only [step] at h
  split at h
  · exact ⟨‹_›, (Option.some.inj h).symm⟩
  · cases h

theorem step_cancel {p : Nat} (h : step worker all s (.cancel p) = some s') :
    s.tasks[p]? = some .waiting ∧ s.flag = true ∧
      s' = { s with tasks := s.tasks.set p .cancelled } := by
  simp only [step] at h
  split at h
  · split at h
    · exact ⟨‹_›, ‹_›, (Option.some.inj h).symm⟩
    · cases h
  · cases h

theorem step_finish {p : Nat} {seenAfter : Option Nat}
    (h : step worker all s (.finish p seenAfter) = some s') :
    ∃ stripe task, s.tasks[p]? = some .running ∧ all[p]? = some stripe ∧
      (s.flag = false → seenAfter = none) ∧ task.IsOver ∧
      task.Accords (worker stripe seenAfter) ∧ s' = { s with tasks := s.tasks.set p task } := by
  simp only [step] at h
  split at h
  case h_1 stripe hrunning hp =>
    split at h
    · cases h
    · rename_i hseen
      refine ⟨stripe, _, hrunning, hp, ?_, ?_, ?_, (Option.some.inj h).symm⟩
      · intro hf
        cases seenAfter with
        | none => rfl
        | some k => simp [hf] at hseen
      · cases worker stripe seenAfter <;> trivial
      · cases hw : worker stripe seenAfter <;> rfl
  case h_2 => cases h

/-- Observing a finished stripe keeps its result or its failure, if it is the first one. -/
theorem step_observe {p : Nat} (h : step worker all s (.observe p) = some s') :
    p ∉ s.observed ∧ s'.observed = s.observed ++ [p] ∧ s'.tasks = s.tasks ∧ ∃ task,
      s.tasks[p]? = some task ∧ task.IsOver ∧
      ((∃ a, task = .done a ∧ s'.results = s.results ++ [a] ∧ s'.failure = s.failure ∧
          s'.flag = s.flag) ∨
        (∃ e, task = .failed e ∧ s.failure = none ∧ s'.failure = some e ∧ s'.flag = true) ∨
        ((s.failure ≠ none ∨ task = .cancelled) ∧ s'.failure = s.failure ∧ s'.flag = s.flag)) := by
  simp only [step] at h
  split at h
  · cases h
  · rename_i hp
    refine ⟨by simpa using hp, ?_⟩
    split at h
    case h_1 a ht =>
      cases h
      exact ⟨rfl, rfl, _, ht, trivial, .inl ⟨a, rfl, rfl, rfl, rfl⟩⟩
    case h_2 e ht =>
      split at h
      case h_1 e' hf =>
        cases h
        exact ⟨rfl, rfl, _, ht, trivial, .inr (.inr ⟨.inl (by simp [hf]), rfl, rfl⟩)⟩
      case h_2 hf =>
        cases h
        exact ⟨rfl, rfl, _, ht, trivial, .inr (.inl ⟨e, rfl, hf, rfl, rfl⟩)⟩
    case h_3 ht =>
      cases h
      exact ⟨rfl, rfl, _, ht, trivial, .inr (.inr ⟨.inr rfl, rfl, rfl⟩)⟩
    case h_4 => cases h

/-! ## What every event keeps -/

structure Sound (worker : Worker ε α) (all : List (List Nat)) (s : State ε α) : Prop where
  tasks_length : s.tasks.length = all.length
  observed_nodup : s.observed.Nodup
  observed_lt : ∀ p ∈ s.observed, p < all.length
  flag_eq : s.flag = s.failure.isSome
  accords : s.failure = none → ∀ (p : Nat) task stripe, s.tasks[p]? = some task →
    all[p]? = some stripe → task.Accords (worker stripe none)
  results_eq : s.failure = none →
    s.results.map Except.ok = s.observed.map fun p => worker (all.getD p []) none
  failure_mem : ∀ e, s.failure = some e → .error e ∈ all.map fun stripe => worker stripe none

theorem sound_initial : Sound worker all (initial all.length) where
  tasks_length := by simp [initial]
  observed_nodup := List.nodup_nil
  observed_lt := by simp [initial]
  flag_eq := rfl
  accords _ p task stripe ht _ := by
    have hw : task = .waiting := by
      have := List.mem_of_getElem? ht
      simp only [initial, List.mem_replicate] at this
      exact this.2
    rw [hw]
    trivial
  results_eq _ := rfl
  failure_mem e he := by simp [initial] at he

/-- A task may be replaced by one that accords with its stripe, or by any once a failure is
known. -/
theorem Sound.set_task (hs : Sound worker all s) (p : Nat) (task : Task ε α)
    (h : s.failure = none → ∀ stripe, all[p]? = some stripe → task.Accords (worker stripe none)) :
    Sound worker all { s with tasks := s.tasks.set p task } where
  tasks_length := by simpa using hs.tasks_length
  observed_nodup := hs.observed_nodup
  observed_lt := hs.observed_lt
  flag_eq := hs.flag_eq
  accords hf q t stripe ht hq := by
    by_cases hpq : p = q
    · subst hpq
      have hlt : p < s.tasks.length := by
        simpa using (List.getElem?_eq_some_iff.mp ht).1
      rw [List.getElem?_set_self hlt, Option.some_inj] at ht
      subst ht
      exact h hf stripe hq
    · rw [List.getElem?_set_ne hpq] at ht
      exact hs.accords hf q t stripe ht hq
  results_eq := hs.results_eq
  failure_mem := hs.failure_mem

/-- What the task of an observed stripe tells about the work of the stripe. -/
theorem Sound.accords_getD (hs : Sound worker all s) (hf : s.failure = none) {p : Nat}
    {task : Task ε α} (ht : s.tasks[p]? = some task) :
    p < all.length ∧ task.Accords (worker (all.getD p []) none) := by
  have hp : p < all.length := by
    rw [← hs.tasks_length]
    exact (List.getElem?_eq_some_iff.mp ht).1
  refine ⟨hp, hs.accords hf p task _ ht ?_⟩
  simp [List.getD_eq_getElem?_getD, List.getElem?_eq_getElem hp]

theorem Sound.observe (hs : Sound worker all s) {p : Nat}
    (h : step worker all s (.observe p) = some s') : Sound worker all s' := by
  obtain ⟨hp, hobs, htasks, task, ht, -, hcases⟩ := step_observe h
  have hlt : p < all.length := by
    rw [← hs.tasks_length]
    exact (List.getElem?_eq_some_iff.mp ht).1
  have hnodup : s'.observed.Nodup := by
    rw [hobs]
    exact hs.observed_nodup.append (List.nodup_singleton p) (by simpa using hp)
  have hobslt : ∀ q ∈ s'.observed, q < all.length := by
    intro q hq
    rw [hobs, List.mem_append, List.mem_singleton] at hq
    rcases hq with hq | rfl
    · exact hs.observed_lt q hq
    · exact hlt
  have hlen : s'.tasks.length = all.length := by rw [htasks, hs.tasks_length]
  rcases hcases with ⟨a, rfl, hres, hfail, hflag⟩ | ⟨e, rfl, hf, hfail, hflag⟩ | ⟨hold, hfail, hflag⟩
  · refine ⟨hlen, hnodup, hobslt, by rw [hflag, hfail, hs.flag_eq], ?_, ?_, ?_⟩
    · rw [hfail, htasks]
      exact hs.accords
    · intro hf
      rw [hfail] at hf
      have ha : worker (all.getD p []) none = .ok a := (hs.accords_getD hf ht).2
      rw [hres, hobs, List.map_append, List.map_append, hs.results_eq hf, List.map_singleton,
        List.map_singleton, ha]
    · rw [hfail]
      exact hs.failure_mem
  · refine ⟨hlen, hnodup, hobslt, by simp [hflag, hfail], ?_, ?_, ?_⟩
    · intro hf'
      simp [hfail] at hf'
    · intro hf'
      simp [hfail] at hf'
    · intro e' he'
      have he : worker (all.getD p []) none = .error e := (hs.accords_getD hf ht).2
      rw [hfail, Option.some_inj] at he'
      rw [← he', ← he]
      refine List.mem_map_of_mem (f := fun stripe => worker stripe none) ?_
      simp [List.getD_eq_getElem?_getD, List.getElem?_eq_getElem hlt]
  · -- no stripe is cancelled before the first failure is known
    have hfs : s.failure ≠ none := by
      rcases hold with hf | rfl
      · exact hf
      · exact fun hf => (hs.accords_getD hf ht).2
    refine ⟨hlen, hnodup, hobslt, by rw [hflag, hfail, hs.flag_eq], ?_, ?_, ?_⟩
    · intro hf
      exact absurd (hfail ▸ hf) hfs
    · intro hf
      exact absurd (hfail ▸ hf) hfs
    · rw [hfail]
      exact hs.failure_mem

theorem Sound.step (hs : Sound worker all s) {event : Event}
    (h : step worker all s event = some s') : Sound worker all s' := by
  cases event with
  | start p =>
    obtain ⟨-, rfl⟩ := step_start h
    exact hs.set_task p .running fun _ _ _ => trivial
  | finish p seenAfter =>
    obtain ⟨stripe, task, -, hp, hseen, -, hacc, rfl⟩ := step_finish h
    refine hs.set_task p task fun hf stripe' hp' => ?_
    have hflag : s.flag = false := by rw [hs.flag_eq, hf]; rfl
    rw [hp, Option.some_inj] at hp'
    rwa [← hp', ← hseen hflag]
  | observe p => exact hs.observe h
  | cancel p =>
    obtain ⟨-, hflag, rfl⟩ := step_cancel h
    refine hs.set_task p .cancelled fun hf => ?_
    rw [hs.flag_eq, hf] at hflag
    cases hflag

theorem Sound.run {events : List Event} (hs : Sound worker all s)
    (h : events.foldlM (State.step worker all) s = some s') : Sound worker all s' := by
  induction events generalizing s with
  | nil =>
    cases h
    exact hs
  | cons event events ih =>
    rw [List.foldlM_cons] at h
    obtain ⟨s₁, h₁, h⟩ := Option.bind_eq_some_iff.mp h
    exact ih (hs.step h₁) h

end State

/-! ## Outcomes -/

/-- The outcomes of work on some stripes: the results of all in some order, or the failure of
one. -/
def Outcome (worker : Worker ε α) (all : List (List Nat)) : Except ε (List α) → Prop
  | .ok results => (results.map Except.ok).Perm (all.map fun stripe => worker stripe none)
  | .error e => .error e ∈ all.map fun stripe => worker stripe none

/-- If all stripes are observed, they are observed in some order. -/
theorem State.Sound.observed_perm (hs : State.Sound worker all s)
    (hlen : s.observed.length = s.tasks.length) : s.observed.Perm (List.range all.length) := by
  have hsub : s.observed.Subperm (List.range all.length) :=
    List.subperm_of_subset hs.observed_nodup fun p hp => List.mem_range.mpr (hs.observed_lt p hp)
  exact hsub.perm_of_length_le (by simp [hlen, hs.tasks_length])

theorem State.Sound.outcome (hs : State.Sound worker all s) {r : Except ε (List α)}
    (h : s.outcome = some r) : Outcome worker all r := by
  unfold State.outcome at h
  split at h
  case isTrue hlen =>
    split at h
    case h_1 e he =>
      cases h
      exact hs.failure_mem e he
    case h_2 hf =>
      cases h
      have hperm := hs.observed_perm hlen
      have hall : (List.range all.length).map (fun p => worker (all.getD p []) none) =
          all.map fun stripe => worker stripe none := by
        refine List.ext_getElem (by simp) fun i hi _ => ?_
        have hi' : i < all.length := by simpa using hi
        simp [List.getD_eq_getElem?_getD, List.getElem?_eq_getElem hi']
      have hres := hperm.map fun p => worker (all.getD p []) none
      rw [hall, ← hs.results_eq hf] at hres
      exact hres
  case isFalse => cases h

theorem execute_outcome {items workers : Int} {events : List Event} {r : Except ε (List α)}
    (h : execute worker items workers events = some r) :
    Outcome worker (stripes items workers) r := by
  obtain ⟨s, hrun, hout⟩ := Option.bind_eq_some_iff.mp h
  exact (State.sound_initial.run hrun).outcome hout

theorem inOrder_outcome (worker : Worker ε α) (items workers : Int) :
    Outcome worker (stripes items workers) (inOrder worker items workers) := by
  cases h : inOrder worker items workers with
  | ok results =>
    rw [inOrder, mapM_eq_ok_iff] at h
    exact .of_eq h.symm
  | error e =>
    obtain ⟨stripe, hs, he⟩ := exists_of_mapM_eq_error h
    exact List.mem_map.mpr ⟨stripe, hs, he⟩

end Gridding.Striped
