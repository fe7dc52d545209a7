import Gridding.Proofs.Cache.History

/-!
# Values after an invalidation

What is kept of a key is the value its last computation has ended with. When the key, or the whole
cache, is invalidated, values that are there are given up for good, but computations that still go
on stay in flight: later requests may join them, and their values are kept.
-/

namespace Gridding.Cache

variable {κ ε α : Type} [BEq κ]

/-- The computation that ends, if it is one of this key, with its value, if it has one. -/
def Note.given? (key : κ) : Note κ ε α → Option (Nat × α)
  | .ended k ticket (.ok a) => if k == key then some (ticket, a) else none
  | _ => none

/-- The last computation of a key that has ended with a value, and this value. -/
def lastGiven (key : κ) (past : List (Note κ ε α)) : Option (Nat × α) :=
  past.reverse.findSome? (Note.given? key)

theorem lastGiven_append_of_none {key : κ} {past notes : List (Note κ ε α)}
    (h : ∀ note ∈ notes, note.given? key = none) :
    lastGiven key (past ++ notes) = lastGiven key past := by
  have hnone : notes.reverse.findSome? (Note.given? key) = none :=
    List.findSome?_eq_none_iff.mpr fun note hnote => h note (List.mem_reverse.mp hnote)
  rw [lastGiven, List.reverse_append, List.findSome?_append, hnone, Option.none_or]
  rfl

theorem lastGiven_append_ended [LawfulBEq κ] (key : κ) (ticket : Nat) (a : α)
    (past : List (Note κ ε α)) :
    lastGiven key (past ++ [.ended key ticket (.ok a)]) = some (ticket, a) := by
  simp [lastGiven, Note.given?]

/-- The computation from which a request gets its value, if it gets any. -/
def origin (key : κ) (past : List (Note κ ε α)) : Admission α → Option Nat
  | .found _ => (lastGiven key past).map Prod.fst
  | .joined ticket | .started ticket => some ticket
  | .refused => none

namespace Threads

variable {past notes : List (Note κ ε α)} {s s' : Threads κ ε α} {key : κ} {fresh : Nat → Prop}

/-- All computations that requests for a key may get values from are fresh ones. -/
structure Renewed (fresh : Nat → Prop) (key : κ) (past : List (Note κ ε α)) (s : Threads κ ε α) :
    Prop where
  kept : ∀ a, (key, a) ∈ s.cache.kept.entries →
    ∃ ticket, lastGiven key past = some (ticket, a) ∧ fresh ticket
  flight : ∀ f, (key, f) ∈ s.cache.flights → fresh f.ticket
  later : ∀ ticket, s.cache.misses ≤ ticket → fresh ticket

namespace Renewed

theorem keep (h : Renewed fresh key past s) (hnotes : ∀ note ∈ notes, note.given? key = none)
    (hkept : ∀ e ∈ s'.cache.kept.entries, e ∈ s.cache.kept.entries)
    (hflights : ∀ e ∈ s'.cache.flights, e ∈ s.cache.flights ∨ e.2.ticket = s.cache.misses)
    (hmisses : s.cache.misses ≤ s'.cache.misses) : Renewed fresh key (past ++ notes) s' where
  kept a ha := by
    rw [lastGiven_append_of_none hnotes]
    exact h.kept a (hkept _ ha)
  flight f hf := by
    rcases hflights _ hf with hold | hnew
    · exact h.flight f hold
    · exact h.later _ (Nat.le_of_eq hnew.symm)
  later ticket hticket := h.later ticket (Nat.le_trans hmisses hticket)

variable [LawfulBEq κ]

theorem ended (h : Renewed fresh key past s) (hcrew : Crewed s) {t ticket : Nat} {k : κ}
    {answer : Except ε α} {below : List (Frame κ ε α)}
    (hrunning : s.frames t = .computing k ticket :: below)
    (hkept : ∀ e ∈ s'.cache.kept.entries, e ∈ s.cache.kept.entries ∨
      ∃ a, answer = .ok a ∧ e = (k, a))
    (hflights : s'.cache.flights = (s.cache.abandon k).flights)
    (hmisses : s'.cache.misses = s.cache.misses) :
    Renewed fresh key (past ++ [.ended k ticket answer]) s' where
  kept a ha := by
    have hflight := hcrew.flight_of_top hrunning
    rcases hkept _ ha with hold | ⟨b, rfl, heq⟩
    · -- the key in flight has no value, so the computation that ends is one of another key
      have hne : k ≠ key := hcrew.not_kept _ hold _ hflight
      rw [lastGiven_append_of_none]
      · exact h.kept a hold
      · rw [List.forall_mem_singleton]
        cases answer <;> simp [Note.given?, hne]
    · obtain ⟨rfl, rfl⟩ := Prod.mk.inj heq
      exact ⟨ticket, lastGiven_append_ended key ticket a past, h.flight _ hflight⟩
  flight f hf := h.flight f (List.filter_sublist.subset (hflights ▸ hf))
  later n hn := h.later n (hmisses ▸ hn)

theorem change (h : Renewed fresh key past s) (hcrew : Crewed s) (hc : Change s notes s') :
    Renewed fresh key (past ++ notes) s' := by
  cases hc with
  | found t k a kept =>
    exact h.keep (by simp [Note.given?]) (fun _ he => Recent.mem_refresh he) (fun _ he => .inl he)
      (Nat.le_refl _)
  | refused t k =>
    exact h.keep (by simp [Note.given?]) (fun _ he => he) (fun _ he => .inl he) (Nat.le_refl _)
  | joined t k f free flight =>
    exact h.keep (by simp [Note.given?]) (fun _ he => he) (fun _ he => .inl he) (Nat.le_refl _)
  | started t k free absent idle =>
    refine h.keep (by simp [Note.given?]) (fun _ he => he) (fun e he => ?_) (Nat.le_succ _)
    exact (List.mem_cons.mp he).symm.imp_right (congrArg fun e : κ × Flight => e.2.ticket)
  | ended t k ticket answer kept top below running next mem room =>
    exact h.ended hcrew running mem rfl rfl
  | published t ticket answer below ready =>
    exact h.keep (by simp) (fun _ he => he) (fun _ he => .inl he) (Nat.le_refl _)
  | received t ticket answer below waiting answered =>
    exact h.keep (by simp [Note.given?]) (fun _ he => he) (fun _ he => .inl he) (Nat.le_refl _)
  | dropped kept sublist =>
    exact h.keep (by simp) (fun _ he => sublist.subset he) (fun _ he => .inl he) (Nat.le_refl _)

theorem run (h : Renewed fresh key past s) (hcrew : Crewed s) {turns : List (Turn κ ε α)}
    (hrun : s.run turns = some s') : Renewed fresh key (past ++ s.history turns) s' :=
  (run_keeps (P := fun past s => Crewed s ∧ Renewed fresh key past s)
    (fun _ _ _ _ h hc => ⟨h.1.change hc, h.2.change h.1 hc⟩) ⟨hcrew, h⟩ hrun).2

theorem lastGiven_of_found (h : Renewed fresh key past s) {t : Nat} {a : α}
    (hfound : (s.cache.request t key).1 = .found a) :
    ∃ ticket, lastGiven key past = some (ticket, a) ∧ fresh ticket := by
  have hadmits := admits_request s.cache t key
  generalize s.cache.request t key = admitted at hfound hadmits
  cases hadmits with
  | found b kept =>
    cases hfound
    exact h.kept a (mem_of_lookup kept)
  | _ => cases hfound

theorem origin_fresh (h : Renewed fresh key past s) {t ticket : Nat}
    (horigin : origin key past (s.cache.request t key).1 = some ticket) : fresh ticket := by
  have hadmits := admits_request s.cache t key
  generalize s.cache.request t key = admitted at horigin hadmits
  cases hadmits with
  | found a kept =>
    obtain ⟨n, hlast, hfresh⟩ := h.kept a (mem_of_lookup kept)
    rw [origin, hlast] at horigin
    cases horigin
    exact hfresh
  | refused f absent flight own => cases horigin
  | joined f absent flight other =>
    cases horigin
    exact h.flight f (mem_of_lookup flight)
  | started absent idle =>
    cases horigin
    exact h.later _ (Nat.le_refl _)

end Renewed

/-- Right after a key is given up, only computations that go on and later ones are fresh. -/
theorem renewed_of_erased (hcrew : Crewed s) (herased : ∀ e ∈ s.cache.kept.entries, e.1 ≠ key)
    (past : List (Note κ ε α)) :
    Renewed (fun ticket => s.cache.misses ≤ ticket ∨ ∃ t, .computing key ticket ∈ s.frames t) key
      past s where
  kept _ ha := absurd rfl (herased _ ha)
  flight f hf := .inr ⟨f.owner, (hcrew.flight_iff key f).mp hf⟩
  later _ hticket := .inl hticket

variable [LawfulBEq κ]

/-- Once a key has been given up, a request for it gets no value of a computation that was over by
then: what it finds or waits for was still in the making or had not been started. -/
theorem origin_not_started_before {capacity : Option Int} {before between : List (Turn κ ε α)}
    {drop : Turn κ ε α} {s₁ s₂ : Threads κ ε α} {t ticket : Nat}
    (hbefore : (initial capacity).run before = some s₁)
    (hdrop : drop = .invalidate key ∨ drop = .clear)
    (hbetween : s₁.run (drop :: between) = some s₂)
    (horigin : origin key ((initial capacity).history (before ++ drop :: between))
      (s₂.cache.request t key).1 = some ticket)
    (hover : ∀ u, .computing key ticket ∉ s₁.frames u) :
    (∀ a, (s₂.cache.request t key).1 = .found a →
      lastGiven key ((initial capacity).history (before ++ drop :: between)) = some (ticket, a)) ∧
    ∀ u k, .asked u k (.started ticket) ∉ (initial capacity).history before := by
  have hrecorded := recorded_run hbefore
  have hcrew := hrecorded.crewed
  obtain ⟨s, hstep, hrun⟩ := run_cons.mp hbetween
  -- dropping changes nothing but what is kept, and none of the key is
  obtain ⟨hframes, hmisses, herased⟩ : s.frames = s₁.frames ∧ s.cache.misses = s₁.cache.misses ∧
      ∀ e ∈ s.cache.kept.entries, e.1 ≠ key := by
    rcases hdrop with rfl | rfl
    · cases hstep
      exact ⟨rfl, rfl, fun e he => Recent.ne_of_mem_erase he⟩
    · cases hstep
      exact ⟨rfl, rfl, by simp [Cache.clear]⟩
  have hcrew' : Crewed s := hcrew.change (change_of_step hstep)
  have hrenewed := (renewed_of_erased hcrew' herased
    ((initial capacity).history before ++ s₁.notes drop)).run hcrew' hrun
  rw [List.append_assoc, ← history_cons hstep, ← history_append hbefore] at hrenewed
  constructor
  · intro a hfound
    obtain ⟨n, hlast, -⟩ := hrenewed.lastGiven_of_found hfound
    rw [hfound, origin, hlast] at horigin
    cases horigin
    exact hlast
  · intro u k hstarted
    have hlt := hrecorded.requested.ticket_lt u k ticket hstarted
    rcases hrenewed.origin_fresh horigin with hle | ⟨v, hv⟩
    · rw [hmisses] at hle
      exact absurd hle (Nat.not_le.mpr hlt)
    · rw [hframes] at hv
      exact hover v hv

/-- A value computed anew after the first one has been given up. -/
theorem renewed_value_not_started_before :
    let before : List (Turn Nat String Nat) := [.request 0 0, .succeed 0 1, .publish 0]
    let between : List (Turn Nat String Nat) := [.request 1 0, .succeed 1 2, .publish 1]
    ∃ s₁ s₂, (initial none).run before = some s₁ ∧
      s₁.run (.invalidate 0 :: between) = some s₂ ∧
      (∀ u, .computing 0 1 ∉ s₁.frames u) ∧
      origin 0 ((initial none).history (before ++ .invalidate 0 :: between))
        (s₂.cache.request 2 0).1 = some 1 ∧
      lastGiven 0 ((initial none).history (before ++ .invalidate 0 :: between)) = some (1, 2) ∧
      ∀ u k, .asked u k (.started 1) ∉ (initial none).history before := by
  intro before between
  have hover : ∀ s₁, (initial none).run before = some s₁ → ∀ u, .computing 0 1 ∉ s₁.frames u := by
    intro s₁ h u
    cases h
    by_cases hu : u = 0
    · subst hu
      exact List.not_mem_nil
    · simp [hu, setFrames, initial]
  have hfresh := @origin_not_started_before Nat String Nat _ 0 _ none before between (.invalidate 0)
    _ _ 2 _ rfl (.inl rfl) rfl rfl (hover _ rfl)
  exact ⟨_, _, rfl, rfl, hover _ rfl, rfl, hfresh.1 2 rfl, hfresh.2⟩

/-- A computation still in flight when its key is given up puts its old value back. -/
theorem origin_started_before_invalidate :
    let before : List (Turn Nat String Nat) := [.request 0 0]
    let between : List (Turn Nat String Nat) := [.succeed 0 1, .publish 0]
    ∃ s₁ s₂, (initial none).run before = some s₁ ∧
      s₁.run (.invalidate 0 :: between) = some s₂ ∧
      (s₂.cache.request 1 0).1 = .found 1 ∧
      origin 0 ((initial none).history (before ++ .invalidate 0 :: between))
        (s₂.cache.request 1 0).1 = some 0 ∧
      .asked 0 0 (.started 0) ∈ (initial none).history before :=
  ⟨_, _, rfl, rfl, rfl, rfl, List.mem_singleton.mpr rfl⟩

end Threads

end Gridding.Cache
