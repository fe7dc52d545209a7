import Gridding.Proofs.Pool.Schedule
import Mathlib

/-!
# How a schedule ends

A stripe takes part in at most three events, and as long as a schedule is not complete some event
can follow; so every schedule comes to an outcome. By then all stripes are finished or cancelled.
The outcome is a list of results only if no stripe failed and the flag was never set, and then it
has the complete result of every stripe. Otherwise it is the failure that was observed first.
-/

namespace Gridding.Striped

variable {ε α : Type} {worker : Worker ε α} {all : List (List Nat)} {s s' : State ε α}

theorem nil_notMem_stripes (items workers : Int) : [] ∉ stripes items workers := by
  unfold stripes
  split
  · exact List.not_mem_nil
  · intro hnil
    obtain ⟨p, hp, hempty⟩ := List.mem_map.mp hnil
    have hp := List.mem_range.mp hp
    have hcount : stripeCount items workers ≤ items.toNat := by
      unfold stripeCount
      omega
    have hmem : p ∈ stripe items.toNat (stripeCount items workers) p :=
      (mem_stripe_iff_mod hp).mpr ⟨hp.trans_le hcount, Nat.mod_eq_of_lt hp⟩
    rw [hempty] at hmem
    exact List.not_mem_nil hmem

namespace Task

def error? : Task ε α → Option ε
  | .failed e => some e
  | _ => none

/-- The number of events until a task is over. -/
def ahead : Task ε α → Nat
  | .waiting => 2
  | .running => 1
  | _ => 0

theorem isOver_iff_ahead {task : Task ε α} : task.IsOver ↔ task.ahead = 0 := by
  cases task <;> simp [IsOver, ahead]

end Task

namespace State

/-- The failure that was observed first. -/
def firstError (s : State ε α) : Option ε :=
  s.observed.findSome? fun p => s.tasks[p]?.bind Task.error?

/-- The number of events until all tasks are over and observed. -/
def ahead (s : State ε α) : Nat :=
  (s.tasks.map Task.ahead).sum + (s.tasks.length - s.observed.length)

/-- An event brings one task forward that is not over, or observes one that is. -/
theorem step_cases {event : Event} (h : step worker all s event = some s') :
    (∃ p old new, s.tasks[p]? = some old ∧ new.ahead < old.ahead ∧
        s' = { s with tasks := s.tasks.set p new }) ∨
      ∃ p task, s.tasks[p]? = some task ∧ task.IsOver ∧ p ∉ s.observed ∧
        s'.tasks = s.tasks ∧ s'.observed = s.observed ++ [p] ∧
        s'.failure = s.failure.or task.error? := by
  cases event with
  | start p =>
    obtain ⟨hp, rfl⟩ := step_start h
    exact .inl ⟨p, _, .running, hp, by simp [Task.ahead], rfl⟩
  | finish p seenAfter =>
    obtain ⟨stripe, task, hp, -, -, hover, -, rfl⟩ := step_finish h
    have hahead : task.ahead < 1 := by
      rw [Task.isOver_iff_ahead.mp hover]
      exact Nat.one_pos
    exact .inl ⟨p, _, task, hp, hahead, rfl⟩
  | observe p =>
    obtain ⟨hnew, hobserved, htasks, task, hp, hover, hcases⟩ := step_observe h
    refine .inr ⟨p, task, hp, hover, hnew, htasks, hobserved, ?_⟩
    rcases hcases with ⟨a, rfl, -, hfailure, -⟩ | ⟨e, rfl, hnone, hfailure, -⟩ |
      ⟨hold | rfl, hfailure, -⟩
    · rw [hfailure]
      exact (Option.or_none).symm
    · rw [hfailure, hnone]
      rfl
    · rw [hfailure]
      obtain ⟨e, he⟩ := Option.ne_none_iff_exists'.mp hold
      rw [he]
      rfl
    · rw [hfailure]
      exact (Option.or_none).symm
  | cancel p =>
    obtain ⟨hp, -, rfl⟩ := step_cancel h
    exact .inl ⟨p, _, .cancelled, hp, by simp [Task.ahead], rfl⟩

/-! ## Every schedule comes to an end -/

theorem ahead_initial (count : Nat) : (initial count : State ε α).ahead = 3 * count := by
  have hsum : (List.replicate count 2).sum = count * 2 := List.sum_replicate_nat
  simp only [ahead, initial, List.map_replicate, List.length_replicate, List.length_nil,
    Task.ahead, hsum]
  omega

theorem sum_ahead_set {tasks : List (Task ε α)} {p : Nat} {old new : Task ε α}
    (hp : tasks[p]? = some old) (hlt : new.ahead < old.ahead) :
    ((tasks.set p new).map Task.ahead).sum < (tasks.map Task.ahead).sum := by
  induction tasks generalizing p with
  | nil => cases hp
  | cons task tasks ih =>
    cases p with
    | zero =>
      rw [List.getElem?_cons_zero, Option.some_inj] at hp
      simp only [List.set_cons_zero, List.map_cons, List.sum_cons, hp]
      omega
    | succ p =>
      have hrest := ih (p := p) (by simpa using hp)
      simp only [List.set_cons_succ, List.map_cons, List.sum_cons]
      omega

theorem Sound.observed_le (hs : Sound worker all s) : s.observed.length ≤ s.tasks.length := by
  have hsub : s.observed.Subperm (List.range all.length) :=
    List.subperm_of_subset hs.observed_nodup fun p hp => List.mem_range.mpr (hs.observed_lt p hp)
  have hle := hsub.length_le
  rwa [List.length_range, ← hs.tasks_length] at hle

theorem Sound.ahead_lt (hs : Sound worker all s) {event : Event}
    (h : State.step worker all s event = some s') : s'.ahead < s.ahead := by
  rcases step_cases h with ⟨p, old, new, hp, hlt, rfl⟩ | ⟨p, task, -, -, -, htasks, hobserved, -⟩
  · have hsum := sum_ahead_set hp hlt
    simp only [ahead, List.length_set]
    omega
  · have hle := (hs.step h).observed_le
    simp only [htasks, hobserved, List.length_append, List.length_singleton] at hle
    simp only [ahead, htasks, hobserved, List.length_append, List.length_singleton]
    omega

theorem Sound.length_add_ahead_le (hs : Sound worker all s) {events : List Event}
    (h : events.foldlM (State.step worker all) s = some s') :
    events.length + s'.ahead ≤ s.ahead := by
  induction events generalizing s with
  | nil =>
    cases h
    simp
  | cons event events ih =>
    rw [List.foldlM_cons] at h
    obtain ⟨s₁, h₁, h⟩ := Option.bind_eq_some_iff.mp h
    have hlt := hs.ahead_lt h₁
    have hrest := ih (hs.step h₁) h
    rw [List.length_cons]
    omega

/-- A schedule that is not complete can go on. -/
theorem Sound.exists_step (hs : Sound worker all s) (h : s.outcome = none) :
    ∃ event, (s.step worker all event).isSome := by
  by_cases hover : ∀ task ∈ s.tasks, task.IsOver
  · -- all is done, so there is a stripe left to observe
    have hlen : s.observed.length ≠ s.tasks.length := by
      intro hlen
      unfold State.outcome at h
      rw [if_pos hlen] at h
      cases hf : s.failure <;> simp [hf] at h
    have hlt : s.observed.length < s.tasks.length := lt_of_le_of_ne hs.observed_le hlen
    obtain ⟨p, hp, hnew⟩ : ∃ p < s.tasks.length, p ∉ s.observed := by
      by_contra! hall
      have hsub : (List.range s.tasks.length).Subperm s.observed :=
        List.subperm_of_subset List.nodup_range fun p hp => hall p (List.mem_range.mp hp)
      have hle := hsub.length_le
      rw [List.length_range] at hle
      omega
    refine ⟨.observe p, ?_⟩
    have htask := hover _ (List.getElem_mem hp)
    simp only [State.step, List.contains_eq_mem, hnew, decide_false, Bool.false_eq_true, if_false,
      List.getElem?_eq_getElem hp]
    cases hcase : s.tasks[p] with
    | waiting =>
      rw [hcase] at htask
      exact htask.elim
    | running =>
      rw [hcase] at htask
      exact htask.elim
    | done a => rfl
    | failed e => cases s.failure <;> rfl
    | cancelled => rfl
  · push Not at hover
    obtain ⟨task, hmem, htask⟩ := hover
    obtain ⟨p, hp, rfl⟩ := List.getElem_of_mem hmem
    have hp' : p < all.length := hs.tasks_length ▸ hp
    cases hcase : s.tasks[p] with
    | waiting => exact ⟨.start p, by simp [State.step, hp, hcase]⟩
    | running => exact ⟨.finish p none, by simp [State.step, hp, hp', hcase]⟩
    | done a => exact absurd (hcase ▸ trivial) htask
    | failed e => exact absurd (hcase ▸ trivial) htask
    | cancelled => exact absurd (hcase ▸ trivial) htask

/-! ## What has been observed stays -/

/-- Observed stripes are over, and the failure noted is the one that was observed first. -/
structure Noted (s : State ε α) : Prop where
  observed_over : ∀ p ∈ s.observed, ∃ task, s.tasks[p]? = some task ∧ task.IsOver
  failure_eq : s.failure = s.firstError

theorem noted_initial (count : Nat) : (initial count : State ε α).Noted where
  observed_over := by simp [initial]
  failure_eq := rfl

theorem Noted.step (hn : s.Noted) {event : Event} (h : State.step worker all s event = some s') :
    s'.Noted := by
  rcases step_cases h with ⟨p, old, new, hp, hlt, rfl⟩ |
    ⟨p, task, hp, hover, -, htasks, hobserved, hfailure⟩
  · -- the task that changes is not over, so it has not been observed
    have hne : ∀ q ∈ s.observed, p ≠ q := by
      rintro q hq rfl
      obtain ⟨task, htask, hover⟩ := hn.observed_over p hq
      rw [hp, Option.some_inj] at htask
      rw [htask, Task.isOver_iff_ahead.mp hover] at hlt
      exact Nat.not_lt_zero _ hlt
    refine ⟨fun q hq => ?_, ?_⟩
    · obtain ⟨task, htask, hover⟩ := hn.observed_over q hq
      exact ⟨task, by rw [List.getElem?_set_ne (hne q hq), htask], hover⟩
    · have hsame : s.observed.filterMap (fun q => s.tasks[q]?.bind Task.error?) =
          s.observed.filterMap fun q => (s.tasks.set p new)[q]?.bind Task.error? :=
        List.filterMap_congr fun q hq => by rw [List.getElem?_set_ne (hne q hq)]
      have hfirst := congrArg List.head? hsame
      rw [List.head?_filterMap, List.head?_filterMap] at hfirst
      exact hn.failure_eq.trans hfirst
  · refine ⟨fun q hq => ?_, ?_⟩
    · rw [hobserved, List.mem_append, List.mem_singleton] at hq
      rw [htasks]
      rcases hq with hq | rfl
      · exact hn.observed_over q hq
      · exact ⟨task, hp, hover⟩
    · rw [hfailure, hn.failure_eq, firstError, firstError, htasks, hobserved,
        List.findSome?_append, List.findSome?_singleton, hp]
      rfl

theorem Noted.run {events : List Event} (hn : s.Noted)
    (h : events.foldlM (State.step worker all) s = some s') : s'.Noted := by
  induction events generalizing s with
  | nil =>
    cases h
    exact hn
  | cons event events ih =>
    rw [List.foldlM_cons] at h
    obtain ⟨s₁, h₁, h⟩ := Option.bind_eq_some_iff.mp h
    exact ih (hn.step h₁) h

/-- A failure that was noted is not forgotten. -/
theorem failure_isSome_of_run {events : List Event}
    (h : events.foldlM (State.step worker all) s = some s') (hf : s.failure.isSome) :
    s'.failure.isSome := by
  induction events generalizing s with
  | nil =>
    cases h
    exact hf
  | cons event events ih =>
    rw [List.foldlM_cons] at h
    obtain ⟨s₁, h₁, h⟩ := Option.bind_eq_some_iff.mp h
    refine ih h ?_
    rcases step_cases h₁ with ⟨p, old, new, -, -, rfl⟩ | ⟨p, task, -, -, -, -, -, hfailure⟩
    · exact hf
    · rw [hfailure, Option.isSome_or, hf, Bool.true_or]

theorem Sound.all_over (hs : Sound worker all s) (hn : s.Noted)
    (hlen : s.observed.length = s.tasks.length) : ∀ task ∈ s.tasks, task.IsOver := by
  intro task hmem
  obtain ⟨p, hp, rfl⟩ := List.getElem_of_mem hmem
  have hobserved : p ∈ s.observed := by
    rw [(hs.observed_perm hlen).mem_iff, List.mem_range, ← hs.tasks_length]
    exact hp
  obtain ⟨task, htask, hover⟩ := hn.observed_over p hobserved
  rw [List.getElem?_eq_getElem hp, Option.some_inj] at htask
  rwa [htask]

end State

/-- The state that a list of events leads to, if they are possible. -/
def run (worker : Worker ε α) (items workers : Int) (events : List Event) : Option (State ε α) :=
  events.foldlM (State.step worker (stripes items workers))
    (State.initial (stripes items workers).length)

theorem execute_of_run {items workers : Int} {events : List Event}
    (h : run worker items workers events = some s) :
    execute worker items workers events = s.outcome := by
  change (run worker items workers events).bind State.outcome = _
  rw [h]
  rfl

/-- What the outcome of a complete schedule has to do with its last state. -/
structure Settled (worker : Worker ε α) (all : List (List Nat)) (s : State ε α)
    (r : Except ε (List α)) : Prop where
  all_over : ∀ task ∈ s.tasks, task.IsOver
  whole (results : List α) : r = .ok results → (∀ task ∈ s.tasks, ∃ a, task = .done a) ∧
    s.flag = false ∧ (results.map Except.ok).Perm (all.map fun stripe => worker stripe none)
  raised_iff : (∃ e, r = .error e) ↔ ∃ e, .failed e ∈ s.tasks
  first (e : ε) : r = .error e →
    s.firstError = some e ∧ .error e ∈ all.map fun stripe => worker stripe none

theorem State.firstError_mem {e : ε} (h : s.firstError = some e) : .failed e ∈ s.tasks := by
  obtain ⟨p, -, hp⟩ := List.exists_of_findSome?_eq_some h
  obtain ⟨task, htask, he⟩ := Option.bind_eq_some_iff.mp hp
  have hmem := List.mem_of_getElem? htask
  cases task with
  | failed e' =>
    cases he
    exact hmem
  | _ => cases he

/-- Once all stripes are observed, a failure among them has been noted. -/
theorem State.Sound.failure_of_mem (hs : State.Sound worker all s) (hn : s.Noted)
    (hlen : s.observed.length = s.tasks.length) {e : ε} (he : .failed e ∈ s.tasks) :
    s.failure ≠ none := by
  obtain ⟨p, hp, hfailed⟩ := List.getElem_of_mem he
  have hobserved : p ∈ s.observed := by
    rw [(hs.observed_perm hlen).mem_iff, List.mem_range, ← hs.tasks_length]
    exact hp
  rw [hn.failure_eq, State.firstError]
  intro hnone
  have hp' := List.findSome?_eq_none_iff.mp hnone p hobserved
  rw [List.getElem?_eq_getElem hp, hfailed] at hp'
  cases hp'

theorem State.Sound.settled (hs : State.Sound worker all s) (hn : s.Noted) {r : Except ε (List α)}
    (h : s.outcome = some r) : Settled worker all s r := by
  have hr := hs.outcome h
  unfold State.outcome at h
  split at h
  case isFalse => cases h
  case isTrue hlen =>
    have hover := hs.all_over hn hlen
    split at h
    case h_1 e hf =>
      cases h
      have hfirst : s.firstError = some e := hn.failure_eq ▸ hf
      refine ⟨hover, ?_, ⟨fun _ => ⟨e, State.firstError_mem hfirst⟩, fun _ => ⟨e, rfl⟩⟩, ?_⟩
      · intro results hresults
        cases hresults
      · intro e' he'
        cases he'
        exact ⟨hfirst, hr⟩
    case h_2 hf =>
      cases h
      have hnone : ¬ ∃ e, .failed e ∈ s.tasks := fun ⟨e, he⟩ => hs.failure_of_mem hn hlen he hf
      refine ⟨hover, ?_, ⟨?_, fun hfailed => absurd hfailed hnone⟩, ?_⟩
      · intro results hresults
        cases hresults
        refine ⟨fun task hmem => ?_, by rw [hs.flag_eq, hf]; rfl, hr⟩
        have htask := hover task hmem
        obtain ⟨p, hp, rfl⟩ := List.getElem_of_mem hmem
        have haccords := (hs.accords_getD hf (List.getElem?_eq_getElem hp)).2
        cases hcase : s.tasks[p] with
        | done a => exact ⟨a, rfl⟩
        | failed e => exact absurd ⟨e, hcase ▸ hmem⟩ hnone
        | waiting => exact (hcase ▸ htask : Task.IsOver .waiting).elim
        | running => exact (hcase ▸ htask : Task.IsOver .running).elim
        | cancelled =>
          rw [hcase] at haccords
          exact haccords.elim
      · rintro ⟨e, he⟩
        cases he
      · intro e he
        cases he

/-- Whatever the worker, the stripes share out all items, every schedule can be completed and none
goes on for ever, and at the end either all results are there or the first failure seen is raised. -/
theorem every_schedule_settles (worker : Worker ε α) (items workers : Int) :
    (stripes items workers).flatten.Perm (List.range items.toNat) ∧ [] ∉ stripes items workers ∧
      ∀ events s, run worker items workers events = some s →
        events.length ≤ 3 * (stripes items workers).length ∧
        (execute worker items workers events = none →
          ∃ event, (s.step worker (stripes items workers) event).isSome) ∧
        (∀ before after s₁, events = before ++ after → run worker items workers before = some s₁ →
          s₁.flag = true → s.flag = true) ∧
        ∀ r, execute worker items workers events = some r →
          Settled worker (stripes items workers) s r := by
  refine ⟨flatten_stripes_perm items workers, nil_notMem_stripes items workers, ?_⟩
  intro events s hrun
  have hinitial : State.Sound worker (stripes items workers)
      (State.initial (stripes items workers).length) := State.sound_initial
  have hs := hinitial.run hrun
  have hn := (State.noted_initial (stripes items workers).length).run hrun
  rw [execute_of_run hrun]
  refine ⟨?_, hs.exists_step, ?_, fun r => hs.settled hn⟩
  · have hle := hinitial.length_add_ahead_le hrun
    rw [State.ahead_initial] at hle
    omega
  · rintro before after s₁ rfl hbefore hflag
    have hafter : after.foldlM (State.step worker (stripes items workers)) s₁ = some s := by
      rw [run, List.foldlM_append] at hrun
      obtain ⟨s₂, h₂, hafter⟩ := Option.bind_eq_some_iff.mp hrun
      rw [run, h₂, Option.some_inj] at hbefore
      rwa [← hbefore]
    have hs₁ := hinitial.run hbefore
    rw [hs₁.flag_eq] at hflag
    rw [hs.flag_eq]
    exact State.failure_isSome_of_run hafter hflag

/-- Fails at the item `0`, and else gives back its stripe. -/
def fragile : Worker Nat (List Nat) := fun stripe _ => if 0 ∈ stripe then .error 0 else .ok stripe

/-- The stripe of the item `0` fails, that of the item `2` is cancelled and that of the item `1`
finishes late. -/
def lateRun : List Event :=
  [.start 1, .start 0, .finish 0 none, .observe 0, .cancel 2, .finish 1 (some 1), .observe 2,
    .observe 1]

theorem every_schedule_settles_fragile :
    ∃ s, run fragile 3 5 lateRun = some s ∧ execute fragile 3 5 lateRun = some (.error 0) ∧
      s.firstError = some 0 ∧ ∀ task ∈ s.tasks, task.IsOver := by
  obtain ⟨s, hs⟩ : ∃ s, run fragile 3 5 lateRun = some s := ⟨_, rfl⟩
  have herror : execute fragile 3 5 lateRun = some (.error 0) := rfl
  obtain ⟨-, -, h⟩ := every_schedule_settles fragile 3 5
  obtain ⟨-, -, -, hsettled⟩ := h lateRun s hs
  have hend := hsettled (.error 0) herror
  exact ⟨s, hs, herror, (hend.first 0 rfl).1, hend.all_over⟩

end Gridding.Striped
