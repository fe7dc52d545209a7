import Gridding.Proofs.Cache.Crew

/-!
# What the history of a run tells

Every computation was started once and by the request for its key, ends at most once, and gives its
answer to whoever joined it; only values are kept, and each is one that a computation of its key
ended with. Hits and misses count requests.
-/

namespace Gridding.Cache

namespace Note

variable {κ ε α : Type}

/-- Does a request start a computation? -/
def isStart : Note κ ε α → Bool
  | asked _ _ (.started _) => true
  | _ => false

/-- Is this a request, and one that is not refused? -/
def isAdmitted : Note κ ε α → Bool
  | asked _ _ .refused => false
  | asked _ _ _ => true
  | _ => false

end Note

namespace Threads

variable {κ ε α : Type} {past notes : List (Note κ ε α)} {s s' : Threads κ ε α}

/-! ## Requests -/

structure Counted (past : List (Note κ ε α)) (s : Threads κ ε α) : Prop where
  misses_eq : s.cache.misses = past.countP Note.isStart
  hits_add_misses : s.cache.hits + s.cache.misses = past.countP Note.isAdmitted

theorem Counted.change [BEq κ] (h : Counted past s) (hc : Change s notes s') :
    Counted (past ++ notes) s' := by
  have hmisses := h.misses_eq
  have hhits := h.hits_add_misses
  cases hc <;> constructor <;>
    simp only [List.countP_append, List.countP_cons, List.countP_nil, Note.isStart,
      Note.isAdmitted, setFrames, abandon, Bool.false_eq_true, if_true, if_false] <;> omega

/-- Computations were started by requests, each by one, and joined by requests for the same key. -/
structure Requested (past : List (Note κ ε α)) (s : Threads κ ε α) : Prop where
  of_flight : ∀ e ∈ s.cache.flights, .asked e.2.owner e.1 (.started e.2.ticket) ∈ past
  ticket_lt : ∀ t key ticket, .asked t key (.started ticket) ∈ past → ticket < s.cache.misses
  unique : ∀ t u key key' ticket, .asked t key (.started ticket) ∈ past →
    .asked u key' (.started ticket) ∈ past → t = u ∧ key = key'
  of_joined : ∀ t key ticket, .asked t key (.joined ticket) ∈ past →
    ∃ u, .asked u key (.started ticket) ∈ past

namespace Requested

/-- Nothing is started and nothing joined. -/
theorem keep (h : Requested past s) (hflights : ∀ e ∈ s'.cache.flights, e ∈ s.cache.flights)
    (hmisses : s'.cache.misses = s.cache.misses)
    (hstarted : ∀ t key ticket, .asked t key (.started ticket) ∉ notes)
    (hjoined : ∀ t key ticket, .asked t key (.joined ticket) ∉ notes) :
    Requested (past ++ notes) s' where
  of_flight e he := List.mem_append_left _ (h.of_flight e (hflights e he))
  ticket_lt t key ticket hmem := by
    rw [List.mem_append, or_iff_left (hstarted t key ticket)] at hmem
    rw [hmisses]
    exact h.ticket_lt t key ticket hmem
  unique t u key key' ticket hmem hmem' := by
    rw [List.mem_append, or_iff_left (hstarted _ _ _)] at hmem hmem'
    exact h.unique t u key key' ticket hmem hmem'
  of_joined t key ticket hmem := by
    rw [List.mem_append, or_iff_left (hjoined t key ticket)] at hmem
    obtain ⟨u, hu⟩ := h.of_joined t key ticket hmem
    exact ⟨u, List.mem_append_left _ hu⟩

theorem join (h : Requested past s) (t : Nat) {key : κ} {f : Flight}
    (hflight : (key, f) ∈ s.cache.flights) {s' : Threads κ ε α}
    (hflights : s'.cache.flights = s.cache.flights)
    (hmisses : s'.cache.misses = s.cache.misses) :
    Requested (past ++ [.asked t key (.joined f.ticket)]) s' where
  of_flight e he := List.mem_append_left _ (h.of_flight e (hflights ▸ he))
  ticket_lt u k ticket hmem := by
    rw [hmisses]
    exact h.ticket_lt u k ticket (by simpa using hmem)
  unique u v k k' ticket hmem hmem' :=
    h.unique u v k k' ticket (by simpa using hmem) (by simpa using hmem')
  of_joined u k ticket hmem := by
    rcases List.mem_append.mp hmem with hold | hnew
    · obtain ⟨v, hv⟩ := h.of_joined u k ticket hold
      exact ⟨v, List.mem_append_left _ hv⟩
    · cases List.mem_singleton.mp hnew
      exact ⟨f.owner, List.mem_append_left _ (h.of_flight _ hflight)⟩

theorem start (h : Requested past s) (t : Nat) (key : κ) {s' : Threads κ ε α}
    (hflights : s'.cache.flights = (key, ⟨t, s.cache.misses⟩) :: s.cache.flights)
    (hmisses : s'.cache.misses = s.cache.misses + 1) :
    Requested (past ++ [.asked t key (.started s.cache.misses)]) s' where
  of_flight := by
    rw [hflights, List.forall_mem_cons]
    exact ⟨by simp, fun e he => List.mem_append_left _ (h.of_flight e he)⟩
  ticket_lt u k ticket hmem := by
    rw [hmisses]
    rcases List.mem_append.mp hmem with hold | hnew
    · exact Nat.lt_succ_of_lt (h.ticket_lt u k ticket hold)
    · cases List.mem_singleton.mp hnew
      exact Nat.lt_succ_self _
  unique u v k k' ticket hmem hmem' := by
    -- the new ticket is greater than all before it
    rcases List.mem_append.mp hmem with hold | hnew <;>
      rcases List.mem_append.mp hmem' with hold' | hnew'
    · exact h.unique u v k k' ticket hold hold'
    · cases List.mem_singleton.mp hnew'
      exact absurd (h.ticket_lt _ _ _ hold) (Nat.lt_irrefl _)
    · cases List.mem_singleton.mp hnew
      exact absurd (h.ticket_lt _ _ _ hold') (Nat.lt_irrefl _)
    · cases List.mem_singleton.mp hnew
      cases List.mem_singleton.mp hnew'
      exact ⟨rfl, rfl⟩
  of_joined u k ticket hmem := by
    obtain ⟨v, hv⟩ := h.of_joined u k ticket (by simpa using hmem)
    exact ⟨v, List.mem_append_left _ hv⟩

variable [BEq κ] [LawfulBEq κ]

theorem change (h : Requested past s) (hc : Change s notes s') :
    Requested (past ++ notes) s' := by
  cases hc with
  | found t key a kept => exact h.keep (fun _ he => he) rfl (by simp) (by simp)
  | refused t key => exact h.keep (fun _ he => he) rfl (by simp) (by simp)
  | joined t key f free flight => exact h.join t (mem_of_lookup flight) rfl rfl
  | started t key free absent idle => exact h.start t key rfl rfl
  | ended => exact h.keep (fun _ he => List.filter_sublist.subset he) rfl (by simp) (by simp)
  | published => exact h.keep (fun _ he => he) rfl (by simp) (by simp)
  | received => exact h.keep (fun _ he => he) rfl (by simp) (by simp)
  | dropped => exact h.keep (fun _ he => he) rfl (by simp) (by simp)

end Requested

/-! ## Answers -/

/-- A computation that has ended is no longer in flight and has one answer; what is kept of a key
is a value that a computation of it ended with. -/
structure Concluded (past : List (Note κ ε α)) (s : Threads κ ε α) : Prop where
  started : ∀ key ticket answer, .ended key ticket answer ∈ past →
    ∃ t, .asked t key (.started ticket) ∈ past
  landed : ∀ key ticket answer, .ended key ticket answer ∈ past →
    ∀ e ∈ s.cache.flights, e.2.ticket ≠ ticket
  unique : ∀ key key' ticket answer answer', .ended key ticket answer ∈ past →
    .ended key' ticket answer' ∈ past → answer = answer'
  of_kept : ∀ e ∈ s.cache.kept.entries, ∃ ticket, .ended e.1 ticket (.ok e.2) ∈ past

namespace Concluded

/-- Nothing ends and nothing else is kept. -/
theorem keep (h : Concluded past s) (hended : ∀ key ticket answer, .ended key ticket answer ∉ notes)
    (hflights : ∀ e ∈ s'.cache.flights, e ∈ s.cache.flights ∨
      ∀ t key, .asked t key (.started e.2.ticket) ∉ past)
    (hkept : ∀ e ∈ s'.cache.kept.entries, e ∈ s.cache.kept.entries) :
    Concluded (past ++ notes) s' where
  started key ticket answer hmem := by
    rw [List.mem_append, or_iff_left (hended key ticket answer)] at hmem
    obtain ⟨t, ht⟩ := h.started key ticket answer hmem
    exact ⟨t, List.mem_append_left _ ht⟩
  landed key ticket answer hmem e he := by
    rw [List.mem_append, or_iff_left (hended key ticket answer)] at hmem
    rcases hflights e he with hold | hnew
    · exact h.landed key ticket answer hmem e hold
    · rintro rfl
      obtain ⟨t, ht⟩ := h.started key _ answer hmem
      exact hnew t key ht
  unique key key' ticket answer answer' hmem hmem' := by
    rw [List.mem_append, or_iff_left (hended _ _ _)] at hmem hmem'
    exact h.unique key key' ticket answer answer' hmem hmem'
  of_kept e he := by
    obtain ⟨ticket, hticket⟩ := h.of_kept e (hkept e he)
    exact ⟨ticket, List.mem_append_left _ hticket⟩

variable [BEq κ] [LawfulBEq κ]

theorem conclude (h : Concluded past s) (hr : Requested past s) (hcrew : Crewed s) {t : Nat} {key : κ}
    {ticket : Nat} {answer : Except ε α} {below : List (Frame κ ε α)}
    (hrunning : s.frames t = .computing key ticket :: below) {s' : Threads κ ε α}
    (hflights : s'.cache.flights = (s.cache.abandon key).flights)
    (hkept : ∀ e ∈ s'.cache.kept.entries, e ∈ s.cache.kept.entries ∨
      ∃ a, answer = .ok a ∧ e = (key, a)) :
    Concluded (past ++ [.ended key ticket answer]) s' where
  started k n r hmem := by
    rcases List.mem_append.mp hmem with hold | hnew
    · obtain ⟨u, hu⟩ := h.started k n r hold
      exact ⟨u, List.mem_append_left _ hu⟩
    · cases List.mem_singleton.mp hnew
      exact ⟨t, List.mem_append_left _ (hr.of_flight _ (hcrew.flight_of_top hrunning))⟩
  landed k n r hmem e he := by
    rw [hflights, hcrew.mem_abandon_iff hrunning] at he
    rcases List.mem_append.mp hmem with hold | hnew
    · exact h.landed k n r hold e he.1
    · cases List.mem_singleton.mp hnew
      exact fun hticket => he.2 (hcrew.eq_of_ticket he.1 (hcrew.flight_of_top hrunning) hticket)
  unique k k' n r r' hmem hmem' := by
    -- what ends now was in flight, so it has not ended before
    have hflight := hcrew.flight_of_top hrunning
    rcases List.mem_append.mp hmem with hold | hnew <;>
      rcases List.mem_append.mp hmem' with hold' | hnew'
    · exact h.unique k k' n r r' hold hold'
    · cases List.mem_singleton.mp hnew'
      exact absurd rfl (h.landed _ _ _ hold _ hflight)
    · cases List.mem_singleton.mp hnew
      exact absurd rfl (h.landed _ _ _ hold' _ hflight)
    · cases List.mem_singleton.mp hnew
      cases List.mem_singleton.mp hnew'
      rfl
  of_kept e he := by
    rcases hkept e he with hold | ⟨a, rfl, rfl⟩
    · obtain ⟨n, hn⟩ := h.of_kept e hold
      exact ⟨n, List.mem_append_left _ hn⟩
    · exact ⟨ticket, by simp⟩

theorem change (h : Concluded past s) (hr : Requested past s) (hcrew : Crewed s)
    (hc : Change s notes s') : Concluded (past ++ notes) s' := by
  cases hc with
  | found => exact h.keep (by simp) (fun _ he => .inl he) fun _ he => Recent.mem_refresh he
  | refused => exact h.keep (by simp) (fun _ he => .inl he) fun _ he => he
  | joined => exact h.keep (by simp) (fun _ he => .inl he) fun _ he => he
  | started t key free absent idle =>
    refine h.keep (by simp) (fun e he => ?_) fun _ he => he
    rcases List.mem_cons.mp he with rfl | hold
    · exact .inr fun u k hmem => Nat.lt_irrefl _ (hr.ticket_lt u k _ hmem)
    · exact .inl hold
  | ended t key ticket answer kept top below running next mem room =>
    exact h.conclude hr hcrew running rfl mem
  | published => exact h.keep (by simp) (fun _ he => .inl he) fun _ he => he
  | received => exact h.keep (by simp) (fun _ he => .inl he) fun _ he => he
  | dropped kept sublist =>
    exact h.keep (by simp) (fun _ he => .inl he) fun _ he => sublist.subset he

end Concluded

/-- Answers on their way, published or received are those that computations ended with, and who
waits has joined. -/
structure Delivered (past : List (Note κ ε α)) (s : Threads κ ε α) : Prop where
  of_waiting : ∀ t ticket, .waiting ticket ∈ s.frames t → ∃ key, .asked t key (.joined ticket) ∈ past
  of_publishing : ∀ t ticket answer, .publishing ticket answer ∈ s.frames t →
    ∃ key, .ended key ticket answer ∈ past
  of_answer : ∀ ticket answer, (ticket, answer) ∈ s.answers → ∃ key, .ended key ticket answer ∈ past
  of_received : ∀ t ticket answer, .received t ticket answer ∈ past →
    (∃ key, .asked t key (.joined ticket) ∈ past) ∧ ∃ key, .ended key ticket answer ∈ past

namespace Delivered

theorem change [BEq κ] [LawfulBEq κ] (h : Delivered past s) (hc : Change s notes s') :
    Delivered (past ++ notes) s' where
  of_waiting t ticket hmem := by
    rcases hc.waiting hmem with hold | ⟨⟨key, hnew⟩, -⟩
    · obtain ⟨key, hkey⟩ := h.of_waiting t ticket hold
      exact ⟨key, List.mem_append_left _ hkey⟩
    · exact ⟨key, List.mem_append_right _ hnew⟩
  of_publishing t ticket answer hmem := by
    rcases hc.publishing hmem with hold | ⟨key, hnew⟩
    · obtain ⟨key, hkey⟩ := h.of_publishing t ticket answer hold
      exact ⟨key, List.mem_append_left _ hkey⟩
    · exact ⟨key, List.mem_append_right _ hnew⟩
  of_answer ticket answer hmem := by
    have hstays (hold : (ticket, answer) ∈ s.answers) :
        ∃ key, .ended key ticket answer ∈ past ++ notes := by
      obtain ⟨key, hkey⟩ := h.of_answer ticket answer hold
      exact ⟨key, List.mem_append_left _ hkey⟩
    cases hc with
    | published t n r below ready =>
      rcases List.mem_cons.mp hmem with heq | hold
      · cases heq
        obtain ⟨key, hkey⟩ := h.of_publishing t ticket answer (ready ▸ List.mem_cons_self)
        exact ⟨key, List.mem_append_left _ hkey⟩
      · exact hstays hold
    | _ => exact hstays hmem
  of_received t ticket answer hmem := by
    have hstays (hold : (∃ key, .asked t key (.joined ticket) ∈ past) ∧
        ∃ key, .ended key ticket answer ∈ past) :
        (∃ key, .asked t key (.joined ticket) ∈ past ++ notes) ∧
          ∃ key, .ended key ticket answer ∈ past ++ notes :=
      ⟨hold.1.imp fun _ => List.mem_append_left _, hold.2.imp fun _ => List.mem_append_left _⟩
    rcases List.mem_append.mp hmem with hold | hnew
    · exact hstays (h.of_received t ticket answer hold)
    · cases hc with
      | received u n r below waiting answered =>
        cases List.mem_singleton.mp hnew
        exact hstays ⟨h.of_waiting t ticket (waiting ▸ List.mem_cons_self),
          h.of_answer ticket answer (mem_of_lookup answered)⟩
      | _ => simp at hnew

end Delivered

/-! ## Runs -/

structure Recorded (past : List (Note κ ε α)) (s : Threads κ ε α) : Prop where
  crewed : Crewed s
  counted : Counted past s
  requested : Requested past s
  concluded : Concluded past s
  delivered : Delivered past s

theorem recorded_initial (capacity : Option Int) :
    Recorded [] (initial capacity : Threads κ ε α) where
  crewed := crewed_initial capacity
  counted := ⟨rfl, rfl⟩
  requested := ⟨by simp [initial, empty], by simp, by simp, by simp⟩
  concluded := ⟨by simp, by simp, by simp, by simp [initial, empty]⟩
  delivered := ⟨by simp [initial], by simp [initial], by simp [initial], by simp⟩

variable [BEq κ] [LawfulBEq κ]

theorem Recorded.change (h : Recorded past s) (hc : Change s notes s') :
    Recorded (past ++ notes) s' where
  crewed := h.crewed.change hc
  counted := h.counted.change hc
  requested := h.requested.change hc
  concluded := h.concluded.change h.requested h.crewed hc
  delivered := h.delivered.change hc

theorem Recorded.run (h : Recorded past s) {turns : List (Turn κ ε α)}
    (hrun : s.run turns = some s') : Recorded (past ++ s.history turns) s' :=
  run_keeps (fun _ _ _ _ h hc => h.change hc) h hrun

theorem recorded_run {capacity : Option Int} {turns : List (Turn κ ε α)}
    (h : (initial capacity).run turns = some s) : Recorded ((initial capacity).history turns) s :=
  (recorded_initial capacity).run h

end Threads

end Gridding.Cache
