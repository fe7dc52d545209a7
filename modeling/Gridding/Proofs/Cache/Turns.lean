import Gridding.Cache.Threads
import Gridding.Proofs.Cache.Recent

/-!
# What turns do

`notes` tells what is to be seen of a turn: a request and what becomes of it, the end of a
computation, an answer that a thread has waited for. The notes of a run are its `history`.

`Change` lists all that a turn can do to the threads and their cache. What every change keeps holds
after every run.
-/

namespace Gridding.Cache

inductive Note (κ ε α : Type) where
  | asked (thread : Nat) (key : κ) (admission : Admission α)
  | ended (key : κ) (ticket : Nat) (answer : Except ε α)
  | received (thread ticket : Nat) (answer : Except ε α)

section Request

variable {κ α : Type} [BEq κ]

/-- All that can become of a request, with the cache after it. -/
inductive Admits (c : Cache κ α) (t : Nat) (key : κ) : Admission α × Cache κ α → Prop where
  | found (a : α) (kept : c.kept.find? key = some a) :
    Admits c t key (.found a, { c with kept := c.kept.refresh key, hits := c.hits + 1 })
  | refused (f : Flight) (absent : c.kept.find? key = none)
      (flight : c.flights.lookup key = some f) (own : f.owner = t) : Admits c t key (.refused, c)
  | joined (f : Flight) (absent : c.kept.find? key = none)
      (flight : c.flights.lookup key = some f) (other : f.owner ≠ t) :
    Admits c t key (.joined f.ticket, { c with hits := c.hits + 1 })
  | started (absent : c.kept.find? key = none) (idle : c.flights.lookup key = none) :
    Admits c t key (.started c.misses, { c with
      flights := (key, ⟨t, c.misses⟩) :: c.flights, misses := c.misses + 1 })

theorem admits_request (c : Cache κ α) (t : Nat) (key : κ) :
    Admits c t key (c.request t key) := by
  unfold request
  cases hkept : c.kept.find? key with
  | some a => exact .found a hkept
  | none =>
    cases hflight : c.flights.lookup key with
    | none => exact .started hkept hflight
    | some f =>
      by_cases howner : f.owner = t
      · simp only [howner, BEq.rfl, if_true]
        exact .refused f hkept hflight howner
      · simp only [beq_iff_eq, howner, if_false]
        exact .joined f hkept hflight howner

/-- What is kept when a value is, and whether it can be. -/
theorem settle_eq (c : Cache κ α) (key : κ) (a : α) :
    ∃ r kept, c.settle key a = (r, { c.abandon key with kept }) ∧
      ((∃ e, r = .error e) → ∃ n < 0, c.capacity = some n) ∧
      (∀ e ∈ kept.entries, e ∈ c.kept.entries ∨ e = (key, a)) ∧
      ∀ n, c.capacity = some n → 0 ≤ n → (kept.size : Int) ≤ n := by
  unfold settle evict
  cases hcap : c.capacity with
  | none =>
    refine ⟨.ok (), c.kept.set key a, ?_, by simp, fun e he => Entries.mem_put he, by simp⟩
    simp only [abandon, hcap]
  | some n =>
    refine ⟨if n < 0 then .error .negativeCapacity else .ok (),
      (c.kept.set key a).keepNewest n.toNat, ?_, ?_, ?_, ?_⟩
    · simp only [abandon, hcap]
    · rintro ⟨e, he⟩
      split at he
      · exact ⟨n, ‹_›, rfl⟩
      · cases he
    · exact fun e he => Entries.mem_put ((Recent.keepNewest_sublist _ _).subset he)
    · intro m hm hpos
      cases hm
      have hle := Recent.size_keepNewest_le (c.kept.set key a) n.toNat
      omega

end Request

namespace Threads

variable {κ ε α : Type}

theorem frames_setFrames (s : Threads κ ε α) (t u : Nat) (fs : List (Frame κ ε α)) :
    (s.setFrames t fs).frames u = if u = t then fs else s.frames u := rfl

section Frames

variable {s s₁ : Threads κ ε α} {t u : Nat} {f top : Frame κ ε α} {fs below : List (Frame κ ε α)}

theorem mem_setFrames (h : f ∈ (s.setFrames t fs).frames u) : u = t ∧ f ∈ fs ∨ f ∈ s.frames u := by
  rw [frames_setFrames] at h
  split at h
  · exact .inl ⟨‹_›, h⟩
  · exact .inr h

theorem mem_push (hs : s₁.frames = s.frames)
    (h : f ∈ (s₁.setFrames t (top :: s.frames t)).frames u) : u = t ∧ f = top ∨ f ∈ s.frames u := by
  rcases mem_setFrames h with ⟨rfl, hnew⟩ | hold
  · exact (List.mem_cons.mp hnew).imp_left fun heq => ⟨rfl, heq⟩
  · exact .inr (hs ▸ hold)

/-- Frames may stand for the one on top. -/
theorem mem_replace (hs : s₁.frames = s.frames) (htop : s.frames t = top :: below)
    (h : f ∈ (s₁.setFrames t (fs ++ below)).frames u) : u = t ∧ f ∈ fs ∨ f ∈ s.frames u := by
  rcases mem_setFrames h with ⟨rfl, hnew⟩ | hold
  · rw [htop]
    exact (List.mem_append.mp hnew).imp (fun hnew => ⟨rfl, hnew⟩) (List.mem_cons_of_mem top)
  · exact .inr (hs ▸ hold)

theorem mem_of_pop (hs : s₁.frames = s.frames) (htop : s.frames t = top :: below)
    (h : f ∈ (s₁.setFrames t below).frames u) : f ∈ s.frames u := by
  rcases mem_setFrames h with ⟨rfl, hnew⟩ | hold
  · rw [htop]
    exact List.mem_cons_of_mem top hnew
  · exact hs ▸ hold

end Frames

variable [BEq κ]

def notes (s : Threads κ ε α) : Turn κ ε α → List (Note κ ε α)
  | .request t key =>
    if isFree (s.frames t) then [.asked t key (s.cache.request t key).1] else []
  | .succeed t a =>
    match s.frames t with
    | .computing key ticket :: _ => [.ended key ticket (.ok a)]
    | _ => []
  | .fail t e =>
    match s.frames t with
    | .computing key ticket :: _ => [.ended key ticket (.error e)]
    | _ => []
  | .receive t =>
    match s.frames t with
    | .waiting ticket :: _ => ((s.answers.lookup ticket).map (Note.received t ticket)).toList
    | _ => []
  | .publish _ | .invalidate _ | .clear => []

/-- The notes of turns that are taken one after the other, up to one that is impossible. -/
def history (s : Threads κ ε α) : List (Turn κ ε α) → List (Note κ ε α)
  | [] => []
  | turn :: turns =>
    match s.step turn with
    | some s' => s.notes turn ++ s'.history turns
    | none => []

theorem run_cons {s s' : Threads κ ε α} {turn : Turn κ ε α} {turns : List (Turn κ ε α)} :
    s.run (turn :: turns) = some s' ↔ ∃ s₁, s.step turn = some s₁ ∧ s₁.run turns = some s' := by
  rw [run, List.foldlM_cons]
  exact Option.bind_eq_some_iff

theorem history_cons {s s₁ : Threads κ ε α} {turn : Turn κ ε α} (h : s.step turn = some s₁)
    (turns : List (Turn κ ε α)) : s.history (turn :: turns) = s.notes turn ++ s₁.history turns := by
  rw [history, h]

theorem history_append {s s₁ : Threads κ ε α} {before : List (Turn κ ε α)}
    (h : s.run before = some s₁) (after : List (Turn κ ε α)) :
    s.history (before ++ after) = s.history before ++ s₁.history after := by
  induction before generalizing s with
  | nil =>
    cases h
    rfl
  | cons turn before ih =>
    obtain ⟨s', hstep, h⟩ := run_cons.mp h
    rw [List.cons_append, history_cons hstep, history_cons hstep, ih h, List.append_assoc]

/-- All that a turn can do, with the notes of it. -/
inductive Change (s : Threads κ ε α) : List (Note κ ε α) → Threads κ ε α → Prop where
  | found (t : Nat) (key : κ) (a : α) (kept : s.cache.kept.find? key = some a) :
    Change s [.asked t key (.found a)]
      { s with cache := { s.cache with
        kept := s.cache.kept.refresh key, hits := s.cache.hits + 1 } }
  | refused (t : Nat) (key : κ) : Change s [.asked t key .refused] s
  | joined (t : Nat) (key : κ) (f : Flight) (free : isFree (s.frames t) = true)
      (flight : s.cache.flights.lookup key = some f) :
    Change s [.asked t key (.joined f.ticket)]
      ({ s with cache := { s.cache with hits := s.cache.hits + 1 } }.setFrames t
        (.waiting f.ticket :: s.frames t))
  | started (t : Nat) (key : κ) (free : isFree (s.frames t) = true)
      (absent : s.cache.kept.find? key = none) (idle : s.cache.flights.lookup key = none) :
    Change s [.asked t key (.started s.cache.misses)]
      ({ s with cache := { s.cache with
        flights := (key, ⟨t, s.cache.misses⟩) :: s.cache.flights
        misses := s.cache.misses + 1 } }.setFrames t
          (.computing key s.cache.misses :: s.frames t))
  /-- The answer is published next, unless the value cannot be kept. -/
  | ended (t : Nat) (key : κ) (ticket : Nat) (answer : Except ε α) (kept : Recent κ α)
      (top below : List (Frame κ ε α)) (running : s.frames t = .computing key ticket :: below)
      (next : top = [.publishing ticket answer] ∨ top = [] ∧ ∃ n < 0, s.cache.capacity = some n)
      (mem : ∀ e ∈ kept.entries, e ∈ s.cache.kept.entries ∨ ∃ a, answer = .ok a ∧ e = (key, a))
      (room : ∀ n, s.cache.capacity = some n → (s.cache.kept.size : Int) ≤ n →
        (kept.size : Int) ≤ n) :
    Change s [.ended key ticket answer]
      ({ s with cache := { s.cache.abandon key with kept } }.setFrames t (top ++ below))
  | published (t ticket : Nat) (answer : Except ε α) (below : List (Frame κ ε α))
      (ready : s.frames t = .publishing ticket answer :: below) :
    Change s [] ({ s with answers := (ticket, answer) :: s.answers }.setFrames t below)
  | received (t ticket : Nat) (answer : Except ε α) (below : List (Frame κ ε α))
      (waiting : s.frames t = .waiting ticket :: below)
      (answered : s.answers.lookup ticket = some answer) :
    Change s [.received t ticket answer] (s.setFrames t below)
  | dropped (kept : Recent κ α) (sublist : kept.entries.Sublist s.cache.kept.entries) :
    Change s [] { s with cache := { s.cache with kept } }

theorem change_of_request {s s' : Threads κ ε α} {t : Nat} {key : κ}
    (h : s.step (.request t key) = some s') : Change s (s.notes (.request t key)) s' := by
  simp only [step] at h
  split at h
  case isFalse => cases h
  case isTrue hfree =>
    have hadmits := admits_request s.cache t key
    simp only [notes, if_pos hfree]
    generalize s.cache.request t key = admitted at h hadmits ⊢
    cases hadmits with
    | found a kept =>
      cases h
      exact .found t key a kept
    | refused f absent flight own =>
      cases h
      exact .refused t key
    | joined f absent flight other =>
      cases h
      exact .joined t key f hfree flight
    | started absent idle =>
      cases h
      exact .started t key hfree absent idle

theorem change_of_succeed {s s' : Threads κ ε α} {t : Nat} {a : α}
    (h : s.step (.succeed t a) = some s') : Change s (s.notes (.succeed t a)) s' := by
  simp only [step] at h
  split at h
  case h_2 => cases h
  case h_1 key ticket below hrunning =>
    obtain ⟨r, kept, hsettle, herror, hmem, hroom⟩ := settle_eq s.cache key a
    have hmem' : ∀ e ∈ kept.entries, e ∈ s.cache.kept.entries ∨
        ∃ b, Except.ok (ε := ε) a = .ok b ∧ e = (key, b) := fun e he =>
      (hmem e he).imp_right fun he => ⟨a, rfl, he⟩
    have hroom' : ∀ n, s.cache.capacity = some n → (s.cache.kept.size : Int) ≤ n →
        (kept.size : Int) ≤ n := fun n hn hle => hroom n hn (by omega)
    rw [hsettle] at h
    simp only [notes, hrunning]
    cases r with
    | ok _ =>
      cases h
      exact .ended t key ticket (.ok a) kept [_] below hrunning (.inl rfl) hmem' hroom'
    | error e =>
      cases h
      exact .ended t key ticket (.ok a) kept [] below hrunning (.inr ⟨rfl, herror ⟨e, rfl⟩⟩) hmem'
        hroom'

theorem change_of_step {s s' : Threads κ ε α} {turn : Turn κ ε α}
    (h : s.step turn = some s') : Change s (s.notes turn) s' := by
  cases turn with
  | request t key => exact change_of_request h
  | succeed t a => exact change_of_succeed h
  | fail t e =>
    simp only [step] at h
    split at h
    case h_2 => cases h
    case h_1 key ticket below hrunning =>
      simp only [notes, hrunning]
      cases h
      exact .ended t key ticket (.error e) s.cache.kept [_] below hrunning (.inl rfl)
        (fun _ he => .inl he) fun _ _ hle => hle
  | publish t =>
    simp only [step] at h
    split at h
    case h_2 => cases h
    case h_1 ticket answer below hready =>
      cases h
      exact .published t ticket answer below hready
  | receive t =>
    simp only [step] at h
    split at h
    case h_2 => cases h
    case h_1 ticket below hwaiting =>
      obtain ⟨answer, hanswer, h⟩ := Option.map_eq_some_iff.mp h
      simp only [notes, hwaiting, hanswer]
      cases h
      exact .received t ticket answer below hwaiting hanswer
  | invalidate key =>
    cases h
    exact .dropped _ (s.cache.kept.erase_sublist key)
  | clear =>
    cases h
    exact .dropped _ (List.nil_sublist _)

namespace Change

variable {s s' : Threads κ ε α} {notes : List (Note κ ε α)} {u ticket : Nat}

/-- Who starts to wait has joined a flight. -/
theorem waiting [LawfulBEq κ] (hc : Change s notes s')
    (h : .waiting ticket ∈ s'.frames u) : .waiting ticket ∈ s.frames u ∨
      (∃ key, .asked u key (.joined ticket) ∈ notes) ∧
        ∃ e ∈ s'.cache.flights, e.2.ticket = ticket := by
  cases hc with
  | joined t key f free flight =>
    rcases mem_push rfl h with ⟨rfl, heq⟩ | hold
    · cases heq
      exact .inr ⟨⟨key, List.mem_singleton.mpr rfl⟩, (key, f), mem_of_lookup flight, rfl⟩
    · exact .inl hold
  | started t key free absent idle =>
    rcases mem_push rfl h with ⟨-, heq⟩ | hold
    · cases heq
    · exact .inl hold
  | ended t key n r kept top below running next mem room =>
    rcases mem_replace rfl running h with ⟨-, hnew⟩ | hold
    · rcases next with rfl | ⟨rfl, -⟩
      · cases List.mem_singleton.mp hnew
      · cases hnew
    · exact .inl hold
  | published t n r below ready => exact .inl (mem_of_pop rfl ready h)
  | received t n r below waits answered => exact .inl (mem_of_pop rfl waits h)
  | _ => exact .inl h

/-- An answer that is to be published is the one a computation has ended with. -/
theorem publishing {answer : Except ε α} (hc : Change s notes s')
    (h : .publishing ticket answer ∈ s'.frames u) : .publishing ticket answer ∈ s.frames u ∨
      ∃ key, .ended key ticket answer ∈ notes := by
  cases hc with
  | joined t key f free flight =>
    rcases mem_push rfl h with ⟨-, heq⟩ | hold
    · cases heq
    · exact .inl hold
  | started t key free absent idle =>
    rcases mem_push rfl h with ⟨-, heq⟩ | hold
    · cases heq
    · exact .inl hold
  | ended t key n r kept top below running next mem room =>
    rcases mem_replace rfl running h with ⟨-, hnew⟩ | hold
    · rcases next with rfl | ⟨rfl, -⟩
      · cases List.mem_singleton.mp hnew
        exact .inr ⟨key, List.mem_singleton.mpr rfl⟩
      · cases hnew
    · exact .inl hold
  | published t n r below ready => exact .inl (mem_of_pop rfl ready h)
  | received t n r below waits answered => exact .inl (mem_of_pop rfl waits h)
  | _ => exact .inl h

end Change

/-- What every change keeps holds after every run. -/
theorem run_keeps {P : List (Note κ ε α) → Threads κ ε α → Prop}
    (hkeeps : ∀ past s notes s', P past s → Change s notes s' → P (past ++ notes) s')
    {past : List (Note κ ε α)} {s s' : Threads κ ε α} {turns : List (Turn κ ε α)}
    (hs : P past s) (h : s.run turns = some s') : P (past ++ s.history turns) s' := by
  induction turns generalizing past s with
  | nil =>
    cases h
    rwa [history, List.append_nil]
  | cons turn turns ih =>
    obtain ⟨s₁, hstep, h⟩ := run_cons.mp h
    have hnext := ih (hkeeps past s _ s₁ hs (change_of_step hstep)) h
    rwa [history_cons hstep, ← List.append_assoc]

end Threads

end Gridding.Cache
