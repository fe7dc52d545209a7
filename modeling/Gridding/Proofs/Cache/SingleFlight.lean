import Gridding.Proofs.Cache.History

/-!
# Single flight

However threads take turns, no two of them compute the value of one key at a time. A thread that
waits gets the answer of the computation it has joined, and this answer is bound to come: it is
there, or its computation still goes on, or has ended and only has to publish it.
-/

namespace Gridding.Cache.Threads

variable {κ ε α : Type} {s s' : Threads κ ε α}

/-- An answer is there, or in the making, or about to be published. -/
def AnswerComes (s : Threads κ ε α) (ticket : Nat) : Prop :=
  (∃ answer, s.answers.lookup ticket = some answer) ∨
    (∃ e ∈ s.cache.flights, e.2.ticket = ticket) ∨
    ∃ t answer below, s.frames t = .publishing ticket answer :: below

/-- The top of a thread's frames stays on top while the other threads take turns. -/
theorem frames_eq_of_ne {s₁ : Threads κ ε α} {t u : Nat} {fs : List (Frame κ ε α)}
    (hs : s₁.frames = s.frames) (hu : u ≠ t) : (s₁.setFrames t fs).frames u = s.frames u := by
  rw [frames_setFrames, if_neg hu, hs]

theorem ne_of_free {t u ticket : Nat} {answer : Except ε α} {below : List (Frame κ ε α)}
    (htop : s.frames u = .publishing ticket answer :: below) (hfree : isFree (s.frames t) = true) :
    u ≠ t := by
  rintro rfl
  rw [htop] at hfree
  cases hfree

theorem exists_lookup_cons {key : Nat} {a b : Except ε α} {n : Nat}
    {answers : List (Nat × Except ε α)} (h : answers.lookup key = some b) :
    ∃ c, ((n, a) :: answers).lookup key = some c :=
  exists_lookup_of_mem (List.mem_cons_of_mem _ (mem_of_lookup h))

variable [BEq κ] [LawfulBEq κ]

theorem AnswerComes.change {ticket : Nat} {notes : List (Note κ ε α)} (h : AnswerComes s ticket)
    (hcrew : Crewed s) (hcap : ∀ n, s.cache.capacity = some n → 0 ≤ n) (hc : Change s notes s') :
    AnswerComes s' ticket := by
  rcases h with ⟨answer, hanswer⟩ | ⟨e, he, hticket⟩ | ⟨u, answer, rest, htop⟩
  · cases hc with
    | published => exact .inl (exists_lookup_cons hanswer)
    | _ => exact .inl ⟨answer, hanswer⟩
  · cases hc with
    | started => exact .inr (.inl ⟨e, List.mem_cons_of_mem _ he, hticket⟩)
    | ended t key n r kept top below running next =>
      by_cases heq : e = (key, ⟨t, n⟩)
      · -- this flight lands, and as there is room for its value, the answer is published next
        subst heq
        obtain rfl : n = ticket := hticket
        rcases next with rfl | ⟨-, m, hneg, hm⟩
        · refine .inr (.inr ⟨t, r, below, ?_⟩)
          rw [frames_setFrames, if_pos rfl]
          rfl
        · exact absurd (hcap m hm) (Int.not_le.mpr hneg)
      · exact .inr (.inl ⟨e, (hcrew.mem_abandon_iff running e).mpr ⟨he, heq⟩, hticket⟩)
    | _ => exact .inr (.inl ⟨e, he, hticket⟩)
  · cases hc with
    | joined t key f free =>
      exact .inr (.inr ⟨u, answer, rest, (frames_eq_of_ne rfl (ne_of_free htop free)).trans htop⟩)
    | started t key free =>
      exact .inr (.inr ⟨u, answer, rest, (frames_eq_of_ne rfl (ne_of_free htop free)).trans htop⟩)
    | ended t key n r kept top below running =>
      have hne : u ≠ t := by
        rintro rfl
        rw [running] at htop
        cases htop
      exact .inr (.inr ⟨u, answer, rest, (frames_eq_of_ne rfl hne).trans htop⟩)
    | published t n r below ready =>
      by_cases hut : u = t
      · subst hut
        rw [ready] at htop
        cases htop
        exact .inl (exists_lookup_of_mem List.mem_cons_self)
      · exact .inr (.inr ⟨u, answer, rest, (frames_eq_of_ne rfl hut).trans htop⟩)
    | received t n r below waiting =>
      have hne : u ≠ t := by
        rintro rfl
        rw [waiting] at htop
        cases htop
      exact .inr (.inr ⟨u, answer, rest, (frames_eq_of_ne rfl hne).trans htop⟩)
    | _ => exact .inr (.inr ⟨u, answer, rest, htop⟩)

/-- With a capacity that is not negative, nobody waits in vain and no more is kept than it allows. -/
structure Served (capacity : Option Int) (s : Threads κ ε α) : Prop where
  capacity_eq : s.cache.capacity = capacity
  room : ∀ n, capacity = some n → (s.cache.size : Int) ≤ n
  comes : ∀ t ticket, .waiting ticket ∈ s.frames t → AnswerComes s ticket

theorem Served.change {capacity : Option Int} {notes : List (Note κ ε α)} (h : Served capacity s)
    (hcrew : Crewed s) (hcap : ∀ n, capacity = some n → 0 ≤ n) (hc : Change s notes s') :
    Served capacity s' where
  capacity_eq := by
    have hold := h.capacity_eq
    cases hc <;> exact hold
  room n hn := by
    have hold : (s.cache.kept.size : Int) ≤ n := h.room n hn
    cases hc with
    | found t key a kept =>
      have hle := Recent.size_refresh_le s.cache.kept key
      change ((s.cache.kept.refresh key).size : Int) ≤ n
      omega
    | ended t key ticket answer kept top below running next mem room =>
      exact room n (h.capacity_eq.trans hn) hold
    | dropped kept sublist =>
      have hle : kept.size ≤ s.cache.kept.size := sublist.length_le
      change (kept.size : Int) ≤ n
      omega
    | _ => exact hold
  comes u ticket hmem := by
    rcases hc.waiting hmem with hold | ⟨-, hflight⟩
    · exact (h.comes u ticket hold).change hcrew (h.capacity_eq ▸ hcap) hc
    · exact .inr (.inl hflight)

theorem served_run {capacity : Option Int} (hcap : ∀ n, capacity = some n → 0 ≤ n)
    {turns : List (Turn κ ε α)} (h : (initial capacity).run turns = some s) : Served capacity s := by
  have hinitial : Served capacity (initial capacity : Threads κ ε α) :=
    ⟨rfl, hcap, by simp [initial]⟩
  exact (run_keeps (P := fun past s => Recorded past s ∧ Served capacity s)
    (fun _ _ _ _ h hc => ⟨h.1.change hc, h.2.change h.1.crewed hcap hc⟩)
    ⟨recorded_initial capacity, hinitial⟩ h).2

/-! ## What holds after every run -/

/-- What threads and their cache make sure of, with the notes of all that has happened. -/
structure SingleFlight (capacity : Option Int) (past : List (Note κ ε α)) (s : Threads κ ε α) :
    Prop where
  one_computation : ∀ (key : κ) (t u i j ticket ticket' : Nat),
    (s.frames t)[i]? = some (Frame.computing key ticket) →
      (s.frames u)[j]? = some (Frame.computing key ticket') → t = u ∧ i = j
  flight_iff : ∀ key f, (key, f) ∈ s.cache.flights ↔ .computing key f.ticket ∈ s.frames f.owner
  flights_nodup : (s.cache.flights.map Prod.fst).Nodup
  not_kept : ∀ e ∈ s.cache.flights, s.cache.contains e.1 = false
  comes : ∀ t ticket, .waiting ticket ∈ s.frames t → AnswerComes s ticket
  size_le : ∀ n, capacity = some n → (s.cache.size : Int) ≤ n
  /-- A thread that has waited gets what the computation it joined has ended with. -/
  received : ∀ t ticket answer, .received t ticket answer ∈ past →
    ∃ key u, .asked t key (.joined ticket) ∈ past ∧ .asked u key (.started ticket) ∈ past ∧
      .ended key ticket answer ∈ past
  ended_once : ∀ key key' ticket answer answer', .ended key ticket answer ∈ past →
    .ended key' ticket answer' ∈ past → key = key' ∧ answer = answer'
  /-- No failure is kept. -/
  kept : ∀ key a, s.cache.kept.find? key = some a → ∃ ticket, .ended key ticket (.ok a) ∈ past
  misses_eq : s.cache.misses = past.countP Note.isStart
  hits_add_misses : s.cache.hits + s.cache.misses = past.countP Note.isAdmitted
  /-- Only who asks for a key while computing it is refused, and nothing changes then. -/
  refused_iff : ∀ t key, s.cache.request t key = (.refused, s.cache) ↔
    ∃ ticket, .computing key ticket ∈ s.frames t

section Facts

variable {past : List (Note κ ε α)} {capacity : Option Int}

omit [BEq κ] [LawfulBEq κ] in
theorem Crewed.one_computation (h : Crewed s) {key : κ} {t u i j ticket ticket' : Nat}
    (hi : (s.frames t)[i]? = some (Frame.computing key ticket))
    (hj : (s.frames u)[j]? = some (Frame.computing key ticket')) : t = u ∧ i = j := by
  have ht := (h.flight_iff key ⟨t, ticket⟩).mpr (List.mem_of_getElem? hi)
  have hu := (h.flight_iff key ⟨u, ticket'⟩).mpr (List.mem_of_getElem? hj)
  obtain ⟨rfl, rfl⟩ := Flight.mk.inj (h.eq_of_key ht hu)
  obtain ⟨hlt, -⟩ := List.getElem?_eq_some_iff.mp hi
  exact ⟨rfl, (List.getElem?_inj hlt (h.stacked t).nodup).mp (hi.trans hj.symm)⟩

theorem Crewed.not_contains (h : Crewed s) {e : κ × Flight} (he : e ∈ s.cache.flights) :
    s.cache.contains e.1 = false := by
  rw [Cache.contains, Recent.contains, Option.isSome_eq_false_iff, Option.isNone_iff_eq_none]
  exact lookup_eq_none_iff_forall_ne.mpr fun e' he' => (h.not_kept e' he' e he).symm

theorem Crewed.refused_iff (h : Crewed s) (t : Nat) (key : κ) :
    s.cache.request t key = (.refused, s.cache) ↔ ∃ ticket, .computing key ticket ∈ s.frames t := by
  have hadmits := admits_request s.cache t key
  constructor
  · intro hrefused
    rw [hrefused] at hadmits
    cases hadmits with
    | refused f absent flight own =>
      exact ⟨f.ticket, own ▸ (h.flight_iff key f).mp (mem_of_lookup flight)⟩
  · rintro ⟨ticket, hmem⟩
    have hentry := (h.flight_iff key ⟨t, ticket⟩).mpr hmem
    generalize s.cache.request t key = admitted at hadmits ⊢
    cases hadmits with
    | found a kept => exact absurd rfl (h.not_kept _ (mem_of_lookup kept) _ hentry)
    | refused => rfl
    | joined f absent flight other =>
      exact absurd (congrArg Flight.owner (h.eq_of_key (mem_of_lookup flight) hentry)) other
    | started absent idle => exact absurd rfl (lookup_eq_none_iff_forall_ne.mp idle _ hentry)

omit [BEq κ] [LawfulBEq κ] in
theorem Recorded.key_eq (h : Recorded past s) {key key' : κ} {ticket : Nat}
    {answer answer' : Except ε α} (hended : .ended key ticket answer ∈ past)
    (hended' : .ended key' ticket answer' ∈ past) : key = key' := by
  obtain ⟨t, ht⟩ := h.concluded.started key ticket answer hended
  obtain ⟨u, hu⟩ := h.concluded.started key' ticket answer' hended'
  exact (h.requested.unique t u key key' ticket ht hu).2

omit [BEq κ] [LawfulBEq κ] in
theorem Recorded.received (h : Recorded past s) {t ticket : Nat} {answer : Except ε α}
    (hreceived : .received t ticket answer ∈ past) :
    ∃ key u, .asked t key (.joined ticket) ∈ past ∧ .asked u key (.started ticket) ∈ past ∧
      .ended key ticket answer ∈ past := by
  obtain ⟨⟨key, hjoined⟩, key', hended⟩ := h.delivered.of_received t ticket answer hreceived
  obtain ⟨u, hstarted⟩ := h.requested.of_joined t key ticket hjoined
  obtain ⟨v, hstarted'⟩ := h.concluded.started key' ticket answer hended
  obtain ⟨-, rfl⟩ := h.requested.unique u v key key' ticket hstarted hstarted'
  exact ⟨key, u, hjoined, hstarted, hended⟩

end Facts

theorem single_flight {capacity : Option Int} (hcap : ∀ n, capacity = some n → 0 ≤ n)
    {turns : List (Turn κ ε α)} (h : (initial capacity).run turns = some s) :
    SingleFlight capacity ((initial capacity).history turns) s := by
  have hrecorded := recorded_run h
  have hserved := served_run hcap h
  exact {
    one_computation := fun _ _ _ _ _ _ _ => hrecorded.crewed.one_computation
    flight_iff := hrecorded.crewed.flight_iff
    flights_nodup := List.pairwise_map.mpr (hrecorded.crewed.apart.imp And.left)
    not_kept := fun _ => hrecorded.crewed.not_contains
    comes := hserved.comes
    size_le := hserved.room
    received := fun _ _ _ => hrecorded.received
    ended_once := fun key key' ticket answer answer' hended hended' =>
      ⟨hrecorded.key_eq hended hended',
        hrecorded.concluded.unique key key' ticket answer answer' hended hended'⟩
    kept := fun key a hkept => hrecorded.concluded.of_kept (key, a) (mem_of_lookup hkept)
    misses_eq := hrecorded.counted.misses_eq
    hits_add_misses := hrecorded.counted.hits_add_misses
    refused_iff := hrecorded.crewed.refused_iff }

/-- One thread computes the value of 0, for which it needs the value of 1, and asks for 0 once more
while at it; another one joins it, then fails to compute the value of 1 anew. -/
def sharedTurns : List (Turn Nat String Nat) :=
  [.request 0 0, .request 0 1, .request 1 0, .request 0 0, .succeed 0 7, .publish 0, .succeed 0 5,
    .publish 0, .receive 1, .request 1 1, .fail 1 "failed", .publish 1, .request 0 0]

theorem single_flight_shared : (∀ n, some (1 : Int) = some n → 0 ≤ n) ∧
    ∃ s, (initial (some 1)).run sharedTurns = some s ∧
      SingleFlight (some 1) ((initial (some 1)).history sharedTurns) s ∧
      (s.cache.hits, s.cache.misses, s.cache.size) = (2, 3, 1) := by
  have hcap : ∀ n, some (1 : Int) = some n → 0 ≤ n := by
    intro n hn
    cases hn
    decide
  exact ⟨hcap, _, rfl, single_flight hcap rfl, rfl⟩

end Gridding.Cache.Threads
