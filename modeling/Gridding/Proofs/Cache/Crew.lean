import Gridding.Proofs.Cache.Turns
import Mathlib.Data.List.Pairwise

/-!
# Who computes what

A flight is there as long as its owner computes: the entries of flights and the computations in the
frames of threads are the same, no two of one key or with one ticket, and no key in flight has a
value that is kept. `Crewed` is kept by every change, whatever the capacity is.
-/

namespace Gridding.Cache.Threads

variable {κ ε α : Type}

/-- Only the frame on top can be anything but a computation. -/
structure Stacked (fs : List (Frame κ ε α)) : Prop where
  nodup : fs.Nodup
  below : ∀ f ∈ fs.tail, ∃ key ticket, f = .computing key ticket

namespace Stacked

variable {fs below : List (Frame κ ε α)} {f : Frame κ ε α}

theorem computing_of_free (h : Stacked fs) (hfree : isFree fs = true) :
    ∀ f ∈ fs, ∃ key ticket, f = .computing key ticket := by
  cases fs with
  | nil => simp
  | cons top rest =>
    rw [List.forall_mem_cons]
    refine ⟨?_, h.below⟩
    cases top with
    | computing key ticket => exact ⟨key, ticket, rfl⟩
    | publishing ticket answer => simp [isFree] at hfree
    | waiting ticket => simp [isFree] at hfree

theorem push (h : Stacked fs) (hfree : isFree fs = true) (hf : f ∉ fs) : Stacked (f :: fs) :=
  ⟨List.nodup_cons.mpr ⟨hf, h.nodup⟩, h.computing_of_free hfree⟩

theorem pop (h : Stacked (f :: below)) : Stacked below :=
  ⟨(List.nodup_cons.mp h.nodup).2, fun g hg => h.below g (List.mem_of_mem_tail hg)⟩

theorem publish (h : Stacked (f :: below)) (ticket : Nat) (answer : Except ε α) :
    Stacked (.publishing ticket answer :: below) := by
  refine ⟨List.nodup_cons.mpr ⟨fun hmem => ?_, h.pop.nodup⟩, h.below⟩
  obtain ⟨key, ticket', hf⟩ := h.below _ hmem
  cases hf

end Stacked

/-- Two flights have neither key nor ticket in common. -/
def Apart (e e' : κ × Flight) : Prop := e.1 ≠ e'.1 ∧ e.2.ticket ≠ e'.2.ticket

instance : Std.Symm (Apart (κ := κ)) where
  symm _ _ h := ⟨h.1.symm, h.2.symm⟩

structure Crewed (s : Threads κ ε α) : Prop where
  flight_iff : ∀ key f, (key, f) ∈ s.cache.flights ↔ .computing key f.ticket ∈ s.frames f.owner
  apart : s.cache.flights.Pairwise Apart
  ticket_lt : ∀ e ∈ s.cache.flights, e.2.ticket < s.cache.misses
  stacked : ∀ t, Stacked (s.frames t)
  not_kept : ∀ e ∈ s.cache.kept.entries, ∀ e' ∈ s.cache.flights, e'.1 ≠ e.1

theorem crewed_initial (capacity : Option Int) : Crewed (initial capacity : Threads κ ε α) where
  flight_iff := by simp [initial, empty]
  apart := List.Pairwise.nil
  ticket_lt := by simp [initial, empty]
  stacked _ := ⟨List.nodup_nil, by simp [initial]⟩
  not_kept := by simp [initial, empty]

namespace Crewed

variable {s s' : Threads κ ε α}

theorem eq_of_key (h : Crewed s) {key : κ} {f g : Flight} (hf : (key, f) ∈ s.cache.flights)
    (hg : (key, g) ∈ s.cache.flights) : f = g := by
  by_contra hne
  have hapart := h.apart.forall hf hg fun heq => hne (Prod.mk.inj heq).2
  exact hapart.1 rfl

theorem eq_of_ticket (h : Crewed s) {e e' : κ × Flight} (he : e ∈ s.cache.flights)
    (he' : e' ∈ s.cache.flights) (hticket : e.2.ticket = e'.2.ticket) : e = e' := by
  by_contra hne
  have hapart := h.apart.forall he he' hne
  exact hapart.2 hticket

theorem flight_of_top (h : Crewed s) {t : Nat} {key : κ} {ticket : Nat}
    {below : List (Frame κ ε α)} (htop : s.frames t = .computing key ticket :: below) :
    (key, ⟨t, ticket⟩) ∈ s.cache.flights := by
  rw [h.flight_iff, htop]
  exact List.mem_cons_self

theorem joined (h : Crewed s) (t ticket : Nat) (hits : Nat) (hfree : isFree (s.frames t) = true) :
    Crewed ({ s with cache := { s.cache with hits } }.setFrames t
      (.waiting ticket :: s.frames t)) where
  flight_iff key f := by
    rw [frames_setFrames]
    split
    · rename_i howner
      rw [List.mem_cons, or_iff_right (by simp), ← howner]
      exact h.flight_iff key f
    · exact h.flight_iff key f
  apart := h.apart
  ticket_lt := h.ticket_lt
  stacked u := by
    rw [frames_setFrames]
    split
    · refine (h.stacked t).push hfree fun hmem => ?_
      obtain ⟨key, ticket', hf⟩ := (h.stacked t).computing_of_free hfree _ hmem
      cases hf
    · exact h.stacked u
  not_kept := h.not_kept

/-- A frame on top that is no computation may go. -/
theorem popped (h : Crewed s) {t : Nat} {f : Frame κ ε α} {below : List (Frame κ ε α)}
    (htop : s.frames t = f :: below) (hf : ∀ key ticket, f ≠ .computing key ticket)
    (answers : List (Nat × Except ε α)) :
    Crewed ({ s with answers }.setFrames t below) where
  flight_iff key g := by
    rw [frames_setFrames]
    split
    · rename_i howner
      have hiff := h.flight_iff key g
      rwa [howner, htop, List.mem_cons, or_iff_right (hf key g.ticket).symm] at hiff
    · exact h.flight_iff key g
  apart := h.apart
  ticket_lt := h.ticket_lt
  stacked u := by
    rw [frames_setFrames]
    split
    · have hstacked := h.stacked t
      rw [htop] at hstacked
      exact hstacked.pop
    · exact h.stacked u
  not_kept := h.not_kept

/-- Fewer values may be kept. -/
theorem kept_subset (h : Crewed s) {kept : Recent κ α} (hits : Nat)
    (hkept : ∀ e ∈ kept.entries, e ∈ s.cache.kept.entries) :
    Crewed { s with cache := { s.cache with kept, hits } } where
  flight_iff := h.flight_iff
  apart := h.apart
  ticket_lt := h.ticket_lt
  stacked := h.stacked
  not_kept e he := h.not_kept e (hkept e he)

variable [BEq κ] [LawfulBEq κ]

/-- The flight that ends is the only one of its key. -/
theorem mem_abandon_iff (h : Crewed s) {t : Nat} {key : κ} {ticket : Nat}
    {below : List (Frame κ ε α)} (htop : s.frames t = .computing key ticket :: below)
    (e : κ × Flight) :
    e ∈ (s.cache.abandon key).flights ↔ e ∈ s.cache.flights ∧ e ≠ (key, ⟨t, ticket⟩) := by
  simp only [abandon, List.mem_filter, Bool.not_eq_true', beq_eq_false_iff_ne]
  refine and_congr_right fun he => not_congr ?_
  constructor
  · rintro rfl
    rw [← h.eq_of_key (f := e.2) he (h.flight_of_top htop)]
  · rintro rfl
    rfl

theorem started (h : Crewed s) (t : Nat) (key : κ) (hfree : isFree (s.frames t) = true)
    (habsent : s.cache.kept.find? key = none) (hidle : s.cache.flights.lookup key = none) :
    Crewed ({ s with cache := { s.cache with
      flights := (key, ⟨t, s.cache.misses⟩) :: s.cache.flights
      misses := s.cache.misses + 1 } }.setFrames t
        (.computing key s.cache.misses :: s.frames t)) where
  flight_iff k f := by
    rw [frames_setFrames]
    obtain ⟨owner, ticket⟩ := f
    change (k, _) ∈ (key, _) :: s.cache.flights ↔ _
    rw [List.mem_cons, h.flight_iff]
    split
    · rename_i howner
      obtain rfl : owner = t := howner
      simp only [List.mem_cons, Prod.mk.injEq, Flight.mk.injEq, true_and, Frame.computing.injEq]
    · rename_i howner
      rw [or_iff_right]
      rintro heq
      cases heq
      exact howner rfl
  apart := List.pairwise_cons.mpr ⟨fun e he =>
    ⟨(lookup_eq_none_iff_forall_ne.mp hidle e he).symm, Nat.ne_of_gt (h.ticket_lt e he)⟩, h.apart⟩
  ticket_lt := by
    refine List.forall_mem_cons.mpr ⟨Nat.lt_succ_self _, fun e he => ?_⟩
    exact Nat.lt_succ_of_lt (h.ticket_lt e he)
  stacked u := by
    rw [frames_setFrames]
    split
    · refine (h.stacked t).push hfree fun hmem => ?_
      have hold := h.ticket_lt _ ((h.flight_iff key ⟨t, s.cache.misses⟩).mpr hmem)
      exact (Nat.lt_irrefl _ hold).elim
    · exact h.stacked u
  not_kept e he := by
    refine List.forall_mem_cons.mpr ⟨?_, h.not_kept e he⟩
    exact (lookup_eq_none_iff_forall_ne.mp habsent e he).symm

theorem ended (h : Crewed s) {t : Nat} {key : κ} {ticket : Nat} {answer : Except ε α}
    {kept : Recent κ α} {top below : List (Frame κ ε α)}
    (hrunning : s.frames t = .computing key ticket :: below)
    (htop : top = [.publishing ticket answer] ∨ top = [])
    (hmem : ∀ e ∈ kept.entries, e ∈ s.cache.kept.entries ∨ e.1 = key) :
    Crewed ({ s with cache := { s.cache.abandon key with kept } }.setFrames t (top ++ below)) where
  flight_iff k f := by
    have hnodup := (h.stacked t).nodup
    rw [hrunning, List.nodup_cons] at hnodup
    have hout : Frame.computing k f.ticket ∉ top := by
      rcases htop with rfl | rfl <;> simp
    change (k, f) ∈ (s.cache.abandon key).flights ↔ _
    rw [h.mem_abandon_iff hrunning, h.flight_iff k f, frames_setFrames]
    obtain ⟨owner, ticket'⟩ := f
    split
    · rename_i howner
      obtain rfl : owner = t := howner
      rw [List.mem_append, or_iff_right hout, hrunning, List.mem_cons]
      simp only [Frame.computing.injEq, ne_eq, Prod.mk.injEq, Flight.mk.injEq, true_and]
      constructor
      · rintro ⟨heq | hbelow, hne⟩
        · exact absurd heq hne
        · exact hbelow
      · intro hbelow
        refine ⟨.inr hbelow, ?_⟩
        rintro ⟨rfl, rfl⟩
        exact hnodup.1 hbelow
    · rename_i howner
      rw [and_iff_left]
      rintro heq
      cases heq
      exact howner rfl
  apart := h.apart.sublist List.filter_sublist
  ticket_lt e he := h.ticket_lt e (List.filter_sublist.subset he)
  stacked u := by
    have hstacked := h.stacked t
    rw [hrunning] at hstacked
    rw [frames_setFrames]
    split
    · rcases htop with rfl | rfl
      · exact hstacked.publish ticket answer
      · exact hstacked.pop
    · exact h.stacked u
  not_kept e he e' he' := by
    have hold := (h.mem_abandon_iff hrunning e').mp he'
    rcases hmem e he with hkept | hkey
    · exact h.not_kept e hkept e' hold.1
    · have hne : e'.1 ≠ key := by simpa using (List.mem_filter.mp he').2
      rwa [hkey]

theorem change (h : Crewed s) {notes : List (Note κ ε α)} (hc : Change s notes s') :
    Crewed s' := by
  cases hc with
  | found t key a kept => exact h.kept_subset _ fun e he => Recent.mem_refresh he
  | refused t key => exact h
  | joined t key f free flight => exact h.joined t f.ticket _ free
  | started t key free absent idle => exact h.started t key free absent idle
  | ended t key ticket answer kept top below running next mem room =>
    refine h.ended running (next.imp_right And.left) fun e he => (mem e he).imp_right ?_
    rintro ⟨a, -, rfl⟩
    rfl
  | published t ticket answer below ready => exact h.popped ready (by simp) _
  | received t ticket answer below waiting answered => exact h.popped waiting (by simp) _
  | dropped kept sublist => exact h.kept_subset _ fun e he => sublist.subset he

end Crewed

end Gridding.Cache.Threads
