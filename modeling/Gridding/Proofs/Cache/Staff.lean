import Gridding.Cache.Routine
import Gridding.Proofs.Cache.SingleFlight
import Mathlib.Logic.Relation

/-!
# Threads that follow routines

A routine is orderly if none of its computations makes a request. A thread that follows orderly
routines has at most one frame, so whoever is waited for does not wait: there are no chains of
threads that wait for each other, let alone cycles. With room for values there is always a thread
that can go on, as long as there is something left to do. A thread without others fetches values as
`Cache.fetch` does.
-/

namespace Gridding.Cache

variable {κ ε α ι R C : Type} {ω : ι → Type}

namespace Routine

/-- Requests are for keys in `K` and made outside of computations, of which `computed` is the key. -/
def Orderly (K : κ → Prop) : (computed : Option κ) → Routine κ ε α ι ω R → Prop
  | none, done _ => True
  | some _, done _ => False
  | computed, work _ next => ∀ outcome, Orderly K computed (next outcome)
  | none, ask key next compute =>
    K key ∧ (∀ answer, Orderly K none (next answer)) ∧ Orderly K (some key) compute
  | some _, ask _ _ _ => False
  | none, land _ _ _ => False
  | some computed, land key _ next => key = computed ∧ ∀ answer, Orderly K none (next answer)

/-- No request is made before something lands. -/
def AsksNothing : Routine κ ε α ι ω R → Prop
  | done _ => True
  | work _ next => ∀ outcome, AsksNothing (next outcome)
  | ask _ _ _ => False
  | land _ _ _ => True

theorem orderly_work {K : κ → Prop} {computed : Option κ} {job : ι}
    {next : ω job → Routine κ ε α ι ω R} :
    (work job next).Orderly K computed ↔ ∀ outcome, (next outcome).Orderly K computed := by
  cases computed <;> rfl

theorem Orderly.asksNothing {K : κ → Prop} {key : κ} {r : Routine κ ε α ι ω R}
    (h : r.Orderly K (some key)) : r.AsksNothing := by
  induction r with
  | done reply => trivial
  | work job next ih => exact fun outcome => ih outcome (h outcome)
  | ask key' next compute ih ih' => exact h.elim
  | land key' answer next ih => trivial

theorem Orderly.mono {K K' : κ → Prop} (hK : ∀ key, K key → K' key) {computed : Option κ}
    {r : Routine κ ε α ι ω R} (h : r.Orderly K computed) : r.Orderly K' computed := by
  induction r generalizing computed with
  | done reply =>
    cases computed with
    | none => trivial
    | some key => exact h.elim
  | work job next ih =>
    rw [orderly_work] at h ⊢
    exact fun outcome => ih outcome (h outcome)
  | ask key next compute ih ih' =>
    cases computed with
    | none => exact ⟨hK key h.1, fun answer => ih answer (h.2.1 answer), ih' h.2.2⟩
    | some key' => exact h.elim
  | land key answer next ih =>
    cases computed with
    | none => exact h.elim
    | some key' => exact ⟨h.1, fun answer => ih answer (h.2 answer)⟩

/-! ## Without others -/

section Alone

variable {S : Type} [BEq κ] {refuse : CacheError κ → ε} {perform : (job : ι) → S → ω job × S}
  {t : Nat}

/-- With nobody else about, a value is fetched as `Cache.fetch` does it. -/
theorem alone_fetch {key : κ} {compute : (Except ε α → Routine κ ε α ι ω R) → Routine κ ε α ι ω R}
    {act : Action κ α S ε} (hcompute : ∀ next w, (compute next).alone refuse perform t w =
      (next (act w).1).alone refuse perform t (act w).2)
    (next : Except ε α → Routine κ ε α ι ω R) (w : Cache κ α × S) :
    (fetch key compute next).alone refuse perform t w =
      (next (Cache.fetch refuse t key act w).1).alone refuse perform t
        (Cache.fetch refuse t key act w).2 := by
  obtain ⟨c, s⟩ := w
  have hadmits := admits_request c t key
  rw [fetch, alone, Cache.fetch]
  generalize c.request t key = admitted at hadmits ⊢
  cases hadmits with
  | found a kept => rfl
  | refused f absent flight own => rfl
  | joined f absent flight other => rfl
  | started absent idle =>
    simp only [hcompute]
    rfl

end Alone

end Routine

/-! ## Who waits for whom -/

namespace Threads

variable {s s' : Threads κ ε α} {t u ticket : Nat}

/-- The answer of a flight is still to come from this thread. -/
def Holds (s : Threads κ ε α) (u ticket : Nat) : Prop :=
  (∃ key, .computing key ticket ∈ s.frames u) ∨ ∃ answer, .publishing ticket answer ∈ s.frames u

def WaitsFor (s : Threads κ ε α) (t u : Nat) : Prop :=
  ∃ ticket, .waiting ticket ∈ s.frames t ∧ s.Holds u ticket

variable [BEq κ]

/-- The frames that a request adds. -/
def begun (key : κ) : Admission α → List (Frame κ ε α)
  | .found _ | .refused => []
  | .joined ticket => [.waiting ticket]
  | .started ticket => [.computing key ticket]

theorem step_request {key : κ} (h : s.step (.request t key) = some s') :
    isFree (s.frames t) = true ∧ ∀ u, s'.frames u =
      if u = t then begun key (s.cache.request t key).1 ++ s.frames t else s.frames u := by
  simp only [step] at h
  split at h
  case isFalse => cases h
  case isTrue hfree =>
    refine ⟨hfree, fun u => ?_⟩
    have hs' := Option.some.inj h
    subst hs'
    cases (s.cache.request t key).1 <;> simp [begun, frames_setFrames]
    all_goals
      intro hu
      rw [hu]

theorem step_landing {answer : Except ε α} (h : s.step (Staff.landing t answer) = some s') :
    ∃ key ticket below, s.frames t = .computing key ticket :: below ∧ ∀ u, s'.frames u =
      if u = t then
        match Staff.refusal? s.cache key answer with
        | none => .publishing ticket answer :: below
        | some _ => below
      else s.frames u := by
  cases answer with
  | error e =>
    simp only [Staff.landing, step] at h
    split at h
    case h_2 => cases h
    case h_1 key ticket below hrunning =>
      cases h
      exact ⟨key, ticket, below, hrunning, fun u => rfl⟩
  | ok a =>
    simp only [Staff.landing, step] at h
    split at h
    case h_2 => cases h
    case h_1 key ticket below hrunning =>
      have hs' := Option.some.inj h
      subst hs'
      refine ⟨key, ticket, below, hrunning, fun u => ?_⟩
      rw [Staff.refusal?]
      cases (s.cache.settle key a).1 <;> rfl

theorem step_publish (h : s.step (.publish t) = some s') :
    ∃ ticket answer below, s.frames t = .publishing ticket answer :: below ∧
      ∀ u, s'.frames u = if u = t then below else s.frames u := by
  simp only [step] at h
  split at h
  case h_2 => cases h
  case h_1 ticket answer below hready =>
    cases h
    exact ⟨ticket, answer, below, hready, fun u => rfl⟩

theorem step_receive (h : s.step (.receive t) = some s') :
    ∃ ticket below, s.frames t = .waiting ticket :: below ∧
      ∀ u, s'.frames u = if u = t then below else s.frames u := by
  simp only [step] at h
  split at h
  case h_2 => cases h
  case h_1 ticket below hwaiting =>
    obtain ⟨answer, -, h⟩ := Option.map_eq_some_iff.mp h
    cases h
    exact ⟨ticket, below, hwaiting, fun u => rfl⟩

theorem turn_of_asked {turn : Turn κ ε α} {key : κ} {admission : Admission α}
    (h : .asked t key admission ∈ s.notes turn) : turn = .request t key := by
  cases turn with
  | request u key' =>
    simp only [notes] at h
    split at h
    · cases List.mem_singleton.mp h
      rfl
    · cases h
  | succeed u a =>
    simp only [notes] at h
    split at h <;> simp at h
  | fail u e =>
    simp only [notes] at h
    split at h <;> simp at h
  | receive u =>
    simp only [notes] at h
    split at h <;> simp at h
  | publish u => cases h
  | invalidate key' => cases h
  | clear => cases h

theorem request_of_asked {turns : List (Turn κ ε α)} {key : κ} {admission : Admission α}
    (h : .asked t key admission ∈ s.history turns) : .request t key ∈ turns := by
  induction turns generalizing s with
  | nil => cases h
  | cons turn turns ih =>
    rw [history] at h
    split at h
    case h_2 => cases h
    case h_1 s₁ hstep =>
      rcases List.mem_append.mp h with hnow | hlater
      · rw [turn_of_asked hnow]
        exact List.mem_cons_self
      · exact List.mem_cons_of_mem turn (ih hlater)

theorem run_concat {s₁ s₂ : Threads κ ε α} {turns : List (Turn κ ε α)} {turn : Turn κ ε α}
    (h : s.run turns = some s₁) (hstep : s₁.step turn = some s₂) :
    s.run (turns ++ [turn]) = some s₂ := by
  have h' : turns.foldlM step s = some s₁ := h
  rw [run, List.foldlM_append, h']
  simpa using hstep

/-- Only what was requested is kept. -/
theorem request_of_kept [LawfulBEq κ] {capacity : Option Int} {turns : List (Turn κ ε α)}
    (h : (initial capacity).run turns = some s) {e : κ × α} (he : e ∈ s.cache.kept.entries) :
    ∃ t, .request t e.1 ∈ turns := by
  have hrecorded := recorded_run h
  obtain ⟨ticket, hended⟩ := hrecorded.concluded.of_kept e he
  obtain ⟨t, hasked⟩ := hrecorded.concluded.started e.1 ticket _ hended
  exact ⟨t, request_of_asked hasked⟩

end Threads

/-! ## Staff -/

namespace Staff

variable {K : κ → Prop}

/-- What a thread is at, and what is left of its routine. -/
inductive Posted (K : κ → Prop) :
    List (Frame κ ε α) → Option (Routine κ ε α ι ω R) → Prop
  | absent : Posted K [] none
  | outside (r : Routine κ ε α ι ω R) (orderly : r.Orderly K none) : Posted K [] (some r)
  | computing (key : κ) (ticket : Nat) (r : Routine κ ε α ι ω R) (orderly : r.Orderly K (some key)) :
    Posted K [.computing key ticket] (some r)
  | publishing (key : κ) (ticket : Nat) (answer answer' : Except ε α)
      (next : Except ε α → Routine κ ε α ι ω R) (orderly : ∀ a, (next a).Orderly K none) :
    Posted K [.publishing ticket answer] (some (.land key answer' next))
  | waiting (key : κ) (ticket : Nat) (next : Except ε α → Routine κ ε α ι ω R)
      (compute : Routine κ ε α ι ω R) (orderly : (Routine.ask key next compute).Orderly K none) :
    Posted K [.waiting ticket] (some (.ask key next compute))

section Posted

variable {s s' : Staff κ ε α ι ω R} {t u v : Nat}

theorem Posted.not_waiting {fs : List (Frame κ ε α)} {r : Option (Routine κ ε α ι ω R)}
    (h : Posted K fs r) {ticket ticket' : Nat}
    (hholds : (∃ key, .computing key ticket ∈ fs) ∨ ∃ answer, .publishing ticket answer ∈ fs) :
    .waiting ticket' ∉ fs := by
  intro hwaits
  cases h with
  | waiting key n next compute orderly => simp at hholds
  | _ => simp at hwaits

/-- Nobody waits for a thread that waits. -/
theorem not_waitsFor_of_waitsFor (h : ∀ t, Posted K (s.threads.frames t) (s.routines t))
    (htu : s.threads.WaitsFor t u) : ¬ s.threads.WaitsFor u v := by
  intro huv
  obtain ⟨ticket, -, hholds⟩ := htu
  obtain ⟨ticket', hwaits, -⟩ := huv
  exact (h u).not_waiting hholds hwaits

theorem not_transGen_waitsFor (h : ∀ t, Posted K (s.threads.frames t) (s.routines t)) :
    ¬ Relation.TransGen s.threads.WaitsFor t t := by
  intro hcycle
  -- whoever takes part in a cycle is waited for and waits
  obtain ⟨u, htu, -⟩ := Relation.TransGen.head'_iff.mp hcycle
  obtain ⟨v, -, hvt⟩ := Relation.TransGen.tail'_iff.mp hcycle
  exact not_waitsFor_of_waitsFor h hvt htu

end Posted

section Move

variable [BEq κ] {refuse : CacheError κ → ε} {serve : C → Routine κ ε α ι ω R}
  {capacity : Option Int} {s s' : Staff κ ε α ι ω R}

/-- All threads are at what their routines say, and requests have been made for keys in `K` only. -/
structure Attended (K : κ → Prop) (capacity : Option Int) (s : Staff κ ε α ι ω R) : Prop where
  reached : ∃ turns, (Threads.initial capacity).run turns = some s.threads ∧
    ∀ t key, .request t key ∈ turns → K key
  posted : ∀ t, Posted K (s.threads.frames t) (s.routines t)

theorem attended_initial : Attended K capacity (initial capacity : Staff κ ε α ι ω R) where
  reached := ⟨[], rfl, by simp⟩
  posted _ := .absent

namespace Attended

/-- A thread changes its frames and its routine, and the others stay at what they are at. -/
theorem posted_update (h : Attended K capacity s) {t : Nat} {threads : Threads κ ε α}
    {fs : List (Frame κ ε α)} {r : Routine κ ε α ι ω R}
    (hframes : ∀ u, threads.frames u = if u = t then fs else s.threads.frames u)
    (hnew : Posted K fs (some r)) (u : Nat) :
    Posted K (threads.frames u) (({ s with threads }.setRoutine t r).routines u) := by
  rw [hframes, setRoutine]
  by_cases hu : u = t
  · simp only [hu, if_true]
    exact hnew
  · simp only [hu, if_false]
    exact h.posted u

theorem reached_step (h : Attended K capacity s) {turn : Turn κ ε α} {threads : Threads κ ε α}
    (hstep : s.threads.step turn = some threads) (hK : ∀ t key, turn = .request t key → K key) :
    ∃ turns, (Threads.initial capacity).run turns = some threads ∧
      ∀ t key, .request t key ∈ turns → K key := by
  obtain ⟨turns, hturns, hkeys⟩ := h.reached
  refine ⟨turns ++ [turn], Threads.run_concat hturns hstep, ?_⟩
  intro t key hmem
  rcases List.mem_append.mp hmem with hold | hnew
  · exact hkeys t key hold
  · exact hK t key (List.mem_singleton.mp hnew).symm

theorem call (h : Attended K capacity s) {t : Nat} {c : C} (hc : (serve c).Orderly K none)
    (hstep : s.step refuse serve (.call t c) = some s') : Attended K capacity s' := by
  simp only [step] at hstep
  split at hstep
  case isFalse => cases hstep
  case isTrue hoff =>
    have hs' := Option.some.inj hstep
    subst hs'
    have hframes : ∀ u, s.threads.frames u =
        if u = t then s.threads.frames t else s.threads.frames u := by
      intro u
      split <;> simp_all
    refine ⟨h.reached, h.posted_update hframes ?_⟩
    -- a thread with nothing to do has no frames
    have hposted := h.posted t
    rw [isOff] at hoff
    generalize s.threads.frames t = fs at hposted ⊢
    generalize s.routines t = r at hposted hoff
    cases hposted with
    | absent => exact .outside _ hc
    | outside r orderly => exact .outside _ hc
    | computing key ticket r orderly =>
      cases r with
      | done reply => exact orderly.elim
      | _ => cases hoff
    | publishing => cases hoff
    | waiting => cases hoff

theorem work (h : Attended K capacity s) {t : Nat} {outcome : (job : ι) → ω job}
    (hstep : s.step refuse serve (.work t outcome) = some s') : Attended K capacity s' := by
  simp only [step] at hstep
  split at hstep
  case h_2 => cases hstep
  case h_1 job next hroutine =>
    have hs' := Option.some.inj hstep
    subst hs'
    have hframes : ∀ u, s.threads.frames u =
        if u = t then s.threads.frames t else s.threads.frames u := by
      intro u
      split <;> simp_all
    refine ⟨h.reached, h.posted_update hframes ?_⟩
    have hposted := h.posted t
    rw [hroutine] at hposted
    generalize s.threads.frames t = fs at hposted ⊢
    cases hposted with
    | outside r orderly => exact .outside _ (orderly (outcome job))
    | computing key ticket r orderly => exact .computing key ticket _ (orderly (outcome job))

theorem ask (h : Attended K capacity s) {t : Nat}
    (hstep : s.step refuse serve (.ask t) = some s') : Attended K capacity s' := by
  simp only [step] at hstep
  split at hstep
  case h_2 => cases hstep
  case h_1 key next compute hroutine =>
    obtain ⟨threads, hrequest, hs'⟩ := Option.map_eq_some_iff.mp hstep
    subst hs'
    obtain ⟨hfree, hframes⟩ := Threads.step_request hrequest
    have hposted := h.posted t
    rw [hroutine] at hposted
    generalize s.threads.frames t = fs at hposted hfree hframes
    cases hposted with
    | outside r orderly =>
      obtain ⟨hkey, hnext, hcompute⟩ := orderly
      refine ⟨h.reached_step hrequest ?_, h.posted_update hframes ?_⟩
      · intro u key' hturn
        cases hturn
        exact hkey
      · cases (s.threads.cache.request t key).1 with
        | found a => exact .outside _ (hnext _)
        | refused => exact .outside _ (hnext _)
        | joined ticket => exact .waiting key ticket next compute ⟨hkey, hnext, hcompute⟩
        | started ticket => exact .computing key ticket compute hcompute
    | computing key' ticket r orderly => exact orderly.elim
    | waiting => cases hfree

theorem land (h : Attended K capacity s) {t : Nat}
    (hstep : s.step refuse serve (.land t) = some s') : Attended K capacity s' := by
  simp only [step] at hstep
  split at hstep
  case h_2 => cases hstep
  case h_1 key answer next hroutine =>
    obtain ⟨threads, hlanding, hs'⟩ := Option.map_eq_some_iff.mp hstep
    subst hs'
    obtain ⟨key', ticket, below, hrunning, hframes⟩ := Threads.step_landing hlanding
    have hposted := h.posted t
    rw [hroutine, hrunning] at hposted
    cases hposted with
    | computing _ _ _ orderly =>
      obtain ⟨rfl, hnext⟩ := orderly
      refine ⟨h.reached_step hlanding ?_, h.posted_update hframes ?_⟩
      · intro u key' hturn
        cases answer <;> cases hturn
      · cases refusal? s.threads.cache key answer with
        | none => exact .publishing key ticket answer answer next hnext
        | some e => exact .outside _ (hnext _)

theorem publish (h : Attended K capacity s) {t : Nat}
    (hstep : s.step refuse serve (.publish t) = some s') : Attended K capacity s' := by
  simp only [step] at hstep
  split at hstep
  case h_2 => cases hstep
  case h_1 key answer next hroutine =>
    obtain ⟨threads, hpublish, hs'⟩ := Option.map_eq_some_iff.mp hstep
    subst hs'
    obtain ⟨ticket, _, below, hready, hframes⟩ := Threads.step_publish hpublish
    have hposted := h.posted t
    rw [hroutine, hready] at hposted
    cases hposted with
    | publishing _ _ _ _ _ orderly =>
      refine ⟨h.reached_step hpublish (by simp), h.posted_update hframes ?_⟩
      exact .outside _ (orderly answer)

theorem receive (h : Attended K capacity s) {t : Nat}
    (hstep : s.step refuse serve (.receive t) = some s') : Attended K capacity s' := by
  simp only [step] at hstep
  split at hstep
  case h_2 => cases hstep
  case h_1 key next compute ticket below hroutine hwaiting =>
    obtain ⟨answer, hanswer, hstep⟩ := Option.bind_eq_some_iff.mp hstep
    obtain ⟨threads, hreceive, hs'⟩ := Option.map_eq_some_iff.mp hstep
    subst hs'
    obtain ⟨_, _, hwaiting', hframes⟩ := Threads.step_receive hreceive
    have hposted := h.posted t
    rw [hroutine, hwaiting'] at hposted
    cases hposted with
    | waiting _ _ _ _ orderly =>
      refine ⟨h.reached_step hreceive (by simp), h.posted_update hframes ?_⟩
      exact .outside _ (orderly.2.1 answer)

theorem move (h : Attended K capacity s) {m : Move ι ω C}
    (hm : ∀ t c, m = .call t c → (serve c).Orderly K none)
    (hstep : s.step refuse serve m = some s') : Attended K capacity s' := by
  cases m with
  | call t c => exact h.call (hm t c rfl) hstep
  | work t outcome => exact h.work hstep
  | ask t => exact h.ask hstep
  | land t => exact h.land hstep
  | publish t => exact h.publish hstep
  | receive t => exact h.receive hstep

theorem run (h : Attended K capacity s) {moves : List (Move ι ω C)}
    (hcalls : ∀ t c, .call t c ∈ moves → (serve c).Orderly K none)
    (hrun : s.run refuse serve moves = some s') : Attended K capacity s' := by
  induction moves generalizing s with
  | nil =>
    cases hrun
    exact h
  | cons m moves ih =>
    have hrun' : (m :: moves).foldlM (step refuse serve) s = some s' := hrun
    rw [List.foldlM_cons] at hrun'
    obtain ⟨s₁, hstep, hrest⟩ := Option.bind_eq_some_iff.mp hrun'
    have hnext : Attended K capacity s₁ := by
      apply h.move _ hstep
      intro t c hm
      exact hcalls t c (hm ▸ List.mem_cons_self)
    apply ih hnext _ hrest
    intro t c hmem
    exact hcalls t c (List.mem_cons_of_mem m hmem)

end Attended

/-- Is this move a step of the routine of the thread? -/
def IsStepOf (t : Nat) : Move ι ω C → Prop
  | .call _ _ => False
  | .work u _ | .ask u | .land u | .publish u | .receive u => u = t

/-- The thread can make the next step of its routine. -/
def GoesOn (refuse : CacheError κ → ε) (serve : C → Routine κ ε α ι ω R) (s : Staff κ ε α ι ω R)
    (t : Nat) : Prop :=
  ∃ m, IsStepOf t m ∧ (s.step refuse serve m).isSome = true

namespace Attended

theorem holder (h : Attended K capacity s) {t u : Nat} (htu : s.threads.WaitsFor t u) :
    (∃ key ticket r, s.threads.frames u = [.computing key ticket] ∧ s.routines u = some r ∧
      r.AsksNothing) ∨ ∃ ticket answer, s.threads.frames u = [.publishing ticket answer] := by
  obtain ⟨ticket, -, hholds⟩ := htu
  rw [Threads.Holds] at hholds
  have hposted := h.posted u
  generalize s.threads.frames u = fs at hposted hholds ⊢
  generalize s.routines u = r at hposted ⊢
  cases hposted with
  | absent => simp at hholds
  | outside r orderly => simp at hholds
  | computing key n r orderly => exact .inl ⟨key, n, r, rfl, rfl, orderly.asksNothing⟩
  | publishing key n answer _ next orderly => exact .inr ⟨n, answer, rfl⟩
  | waiting key n next compute orderly => simp at hholds

theorem isOff_of_holds (h : Attended K capacity s) {u ticket : Nat}
    (hholds : s.threads.Holds u ticket) : s.isOff u = false := by
  rw [Threads.Holds] at hholds
  rw [isOff]
  have hposted := h.posted u
  generalize s.threads.frames u = fs at hposted hholds
  generalize s.routines u = r at hposted ⊢
  cases hposted with
  | absent => simp at hholds
  | outside r orderly => simp at hholds
  | computing key n r orderly =>
    cases r with
    | done reply => exact orderly.elim
    | _ => rfl
  | publishing key n answer _ next orderly => rfl
  | waiting key n next compute orderly => simp at hholds

/-- A thread that does not wait goes on, if it has something to do. -/
theorem goesOn (h : Attended K capacity s) (outcome : (job : ι) → ω job) {t : Nat}
    (ht : s.isOff t = false) (hwaits : ∀ ticket, .waiting ticket ∉ s.threads.frames t) :
    GoesOn refuse serve s t := by
  have hworks : ∀ job next, s.routines t = some (.work job next) → GoesOn refuse serve s t := by
    intro job next hroutine
    exact ⟨.work t outcome, rfl, by rw [step, hroutine]; rfl⟩
  have hposted := h.posted t
  rw [isOff] at ht
  generalize hfs : s.threads.frames t = fs at hposted hwaits
  generalize hr : s.routines t = r at hposted ht
  cases hposted with
  | absent => cases ht
  | outside r orderly =>
    cases r with
    | done reply => cases ht
    | work job next => exact hworks job next hr
    | ask key next compute =>
      refine ⟨.ask t, rfl, ?_⟩
      simp [step, hr, Threads.step, hfs, Threads.isFree]
    | land key answer next => exact orderly.elim
  | computing key ticket r orderly =>
    cases r with
    | done reply => cases ht
    | work job next => exact hworks job next hr
    | ask key' next compute => exact orderly.elim
    | land key' answer next =>
      refine ⟨.land t, rfl, ?_⟩
      cases answer <;> simp [step, hr, landing, Threads.step, hfs]
  | publishing key ticket answer _ next orderly =>
    refine ⟨.publish t, rfl, ?_⟩
    simp [step, hr, Threads.step, hfs]
  | waiting key ticket next compute orderly => exact absurd List.mem_cons_self (hwaits ticket)

theorem goesOn_of_answered (h : Attended K capacity s) {t ticket : Nat} {answer : Except ε α}
    (hwaits : .waiting ticket ∈ s.threads.frames t)
    (hanswer : s.threads.answers.lookup ticket = some answer) : GoesOn refuse serve s t := by
  refine ⟨.receive t, rfl, ?_⟩
  have hposted := h.posted t
  generalize hfs : s.threads.frames t = fs at hposted hwaits
  generalize hr : s.routines t = r at hposted
  cases hposted with
  | waiting key n next compute orderly =>
    obtain rfl : ticket = n := by simpa using hwaits
    simp [step, hr, Threads.step, hfs, hanswer]
  | _ => simp at hwaits

variable [LawfulBEq κ]

theorem not_refused (h : Attended K capacity s) {t : Nat} {key : κ}
    {next : Except ε α → Routine κ ε α ι ω R} {compute : Routine κ ε α ι ω R}
    (hroutine : s.routines t = some (.ask key next compute)) :
    (s.threads.cache.request t key).1 ≠ .refused := by
  intro hrefused
  obtain ⟨turns, hturns, -⟩ := h.reached
  have hcrewed := (Threads.recorded_run hturns).crewed
  have hunchanged : s.threads.cache.request t key = (.refused, s.threads.cache) := by
    have hadmits := admits_request s.threads.cache t key
    generalize s.threads.cache.request t key = admitted at hrefused hadmits ⊢
    cases hadmits with
    | refused => rfl
    | _ => cases hrefused
  -- who is refused computes the key, and no computation makes a request
  obtain ⟨ticket, hcomputing⟩ := (hcrewed.refused_iff t key).mp hunchanged
  have hposted := h.posted t
  rw [hroutine] at hposted
  generalize s.threads.frames t = fs at hposted hcomputing
  cases hposted with
  | outside r orderly => simp at hcomputing
  | computing key' n r orderly => exact orderly.elim
  | waiting => simp at hcomputing

theorem of_kept (h : Attended K capacity s) {e : κ × α}
    (he : e ∈ s.threads.cache.kept.entries) : K e.1 := by
  obtain ⟨turns, hturns, hkeys⟩ := h.reached
  obtain ⟨t, hrequest⟩ := Threads.request_of_kept hturns he
  exact hkeys t e.1 hrequest

theorem answered_or_waitsFor (h : Attended K capacity s) (hcap : ∀ n, capacity = some n → 0 ≤ n)
    {t ticket : Nat} (hwaits : .waiting ticket ∈ s.threads.frames t) :
    (∃ answer, s.threads.answers.lookup ticket = some answer) ∨ ∃ u, s.threads.WaitsFor t u := by
  obtain ⟨turns, hturns, -⟩ := h.reached
  have hcrewed := (Threads.recorded_run hturns).crewed
  rcases (Threads.served_run hcap hturns).comes t ticket hwaits with
    hanswer | ⟨e, he, rfl⟩ | ⟨u, answer, below, htop⟩
  · exact .inl hanswer
  · have hcomputing := (hcrewed.flight_iff e.1 e.2).mp he
    exact .inr ⟨e.2.owner, e.2.ticket, hwaits, .inl ⟨e.1, hcomputing⟩⟩
  · have hpublishing : .publishing ticket answer ∈ s.threads.frames u :=
      htop ▸ List.mem_cons_self
    exact .inr ⟨u, ticket, hwaits, .inr ⟨answer, hpublishing⟩⟩

/-- Nobody is stuck: a thread with something to do goes on or waits for one that does. -/
theorem goesOn_or_waitsFor (h : Attended K capacity s)
    (hcap : ∀ n, capacity = some n → 0 ≤ n) (outcome : (job : ι) → ω job) {t : Nat}
    (ht : s.isOff t = false) :
    GoesOn refuse serve s t ∨ ∃ u, s.threads.WaitsFor t u ∧ GoesOn refuse serve s u := by
  by_cases hwaits : ∃ ticket, .waiting ticket ∈ s.threads.frames t
  · obtain ⟨ticket, hticket⟩ := hwaits
    rcases h.answered_or_waitsFor hcap hticket with ⟨answer, hanswer⟩ | ⟨u, htu⟩
    · exact .inl (h.goesOn_of_answered hticket hanswer)
    · right
      have ⟨n, _, hholds⟩ := htu
      have hnot : ∀ m, .waiting m ∉ s.threads.frames u := by
        intro m
        exact (h.posted u).not_waiting hholds
      exact ⟨u, htu, h.goesOn outcome (h.isOff_of_holds hholds) hnot⟩
  · left
    exact h.goesOn outcome ht fun ticket hticket => hwaits ⟨ticket, hticket⟩

end Attended

end Move

end Staff

end Gridding.Cache
