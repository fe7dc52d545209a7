import Gridding.Proofs.Cache.Fetch
import Mathlib.Data.List.Dedup
import Mathlib.Data.List.DropRight

/-!
# What is kept of requests

When requests come one after the other, the values that are kept are those of the keys asked for
last with success, as many as there is room for, in the order of these requests. With more room,
everything is kept that is kept with less.
-/

namespace Gridding

/-! ## Keys in order of use -/

section Keys

variable {κ : Type} {capacity wider : Option ℕ} {key : κ} {ks ks' : List κ} {n : ℕ}

/-- The last of some keys, as many as there is room for. -/
def newest (capacity : Option ℕ) (ks : List κ) : List κ :=
  match capacity with
  | none => ks
  | some n => ks.rtake n

theorem rtake_of_length_le (h : ks.length ≤ n) : ks.rtake n = ks := by
  rw [List.rtake, Nat.sub_eq_zero_of_le h, List.drop_zero]

theorem length_rtake (n : ℕ) (ks : List κ) : (ks.rtake n).length = min n ks.length := by
  rw [List.rtake, List.length_drop]
  omega

theorem rtake_append (h : n ≤ ks'.length) : (ks ++ ks').rtake n = ks'.rtake n := by
  rw [List.rtake, List.length_append, List.rtake,
    show ks.length + ks'.length - n = ks.length + (ks'.length - n) by omega, ← List.drop_drop,
    List.drop_left]

theorem newest_sublist (capacity : Option ℕ) (ks : List κ) : (newest capacity ks).Sublist ks := by
  cases capacity with
  | none => exact List.Sublist.refl ks
  | some n => exact List.drop_sublist _ _

theorem newest_of_fits (h : ∀ n, capacity = some n → ks.length ≤ n) : newest capacity ks = ks := by
  cases capacity with
  | none => rfl
  | some n => exact rtake_of_length_le (h n rfl)

theorem length_newest_le (h : capacity = some n) (ks : List κ) :
    (newest capacity ks).length ≤ n := by
  rw [h, newest, length_rtake]
  exact Nat.min_le_left _ _

/-- There is at least as much room in the second case. -/
def AtMost (capacity wider : Option ℕ) : Prop := ∀ n, wider = some n → ∃ m ≤ n, capacity = some m

theorem AtMost.fits (hmore : AtMost capacity wider) {m : ℕ} (hm : capacity = some m)
    (h : ks.length ≤ m) : ∀ n, wider = some n → ks.length ≤ n := by
  intro n hn
  obtain ⟨m', hle, hm'⟩ := hmore n hn
  obtain rfl := Option.some.inj (hm.symm.trans hm')
  exact h.trans hle

variable [DecidableEq κ]

/-- The keys after one of them, or another one, has been asked for. -/
def touch (key : κ) (ks : List κ) : List κ := ks.erase key ++ [key]

theorem touch_of_notMem (h : key ∉ ks) : touch key ks = ks ++ [key] := by
  rw [touch, List.erase_of_not_mem h]

theorem length_touch_of_mem (h : key ∈ ks) : (touch key ks).length = ks.length := by
  have hpos := List.length_pos_of_mem h
  rw [touch, List.length_append, List.length_erase_of_mem h, List.length_singleton]
  omega

theorem length_touch_of_notMem (h : key ∉ ks) : (touch key ks).length = ks.length + 1 := by
  rw [touch_of_notMem h, List.length_append, List.length_singleton]

theorem length_le_length_touch (key : κ) (ks : List κ) : ks.length ≤ (touch key ks).length := by
  by_cases h : key ∈ ks
  · rw [length_touch_of_mem h]
  · rw [length_touch_of_notMem h]
    omega

theorem touch_sublist_touch (h : ks.Sublist ks') (key : κ) :
    (touch key ks).Sublist (touch key ks') :=
  (h.erase key).append (List.Sublist.refl [key])

theorem dedup_concat (ks : List κ) (key : κ) : (ks ++ [key]).dedup = touch key ks.dedup := by
  induction ks with
  | nil => rfl
  | cons k ks ih =>
    rw [List.cons_append]
    by_cases hmem : k ∈ ks
    · rw [List.dedup_cons_of_mem hmem, List.dedup_cons_of_mem (List.mem_append_left _ hmem), ih]
    · have hnew : k ∉ ks.dedup := mt List.mem_dedup.mp hmem
      rw [List.dedup_cons_of_notMem hmem]
      by_cases hkey : k = key
      · subst hkey
        rw [List.dedup_cons_of_mem (List.mem_append_right _ List.mem_cons_self), ih,
          touch_of_notMem hnew, touch, List.erase_cons_head]
      · rw [List.dedup_cons_of_notMem (by simp [hmem, hkey]), ih, touch, touch,
          List.erase_cons_tail (by simpa using hkey), List.cons_append]

/-- Keys that were given up make no difference when another one is asked for. -/
theorem newest_touch_newest (hnodup : ks.Nodup) (capacity : Option ℕ) (key : κ) :
    newest capacity (touch key (newest capacity ks)) = newest capacity (touch key ks) := by
  cases capacity with
  | none => rfl
  | some n =>
    change (touch key (ks.rtake n)).rtake n = (touch key ks).rtake n
    rcases Nat.le_total ks.length n with hfits | hlong
    · rw [rtake_of_length_le hfits]
    · obtain ⟨old, hold⟩ : ∃ old, ks = old ++ ks.rtake n := ⟨_, (List.take_append_drop _ ks).symm⟩
      have hlength : (ks.rtake n).length = n := by
        rw [length_rtake]
        omega
      generalize ks.rtake n = kept at hold hlength ⊢
      subst hold
      obtain ⟨older, holder⟩ : ∃ older, touch key (old ++ kept) = older ++ touch key kept := by
        by_cases hmem : key ∈ old
        · have hnot : key ∉ kept := fun h => (List.disjoint_of_nodup_append hnodup) hmem h
          exact ⟨old.erase key, by
            rw [touch, List.erase_append_left kept hmem, touch_of_notMem hnot, List.append_assoc]⟩
        · exact ⟨old, by rw [touch, List.erase_append_right kept hmem, touch, List.append_assoc]⟩
      rw [holder, rtake_append]
      exact hlength ▸ length_le_length_touch key kept

/-- The keys kept with less room, unless there is room for more, are part of those kept with more
room, in their order. -/
structure Within (capacity : Option ℕ) (ks ks' : List κ) : Prop where
  sublist : ks.Sublist ks'
  full_or_eq : (∃ n, capacity = some n ∧ n ≤ ks.length) ∨ ks = ks'

/-- Keys are given up in the first case as soon as they are in the second one. -/
theorem Within.newest_sublist_newest (h : Within capacity ks ks') (hmore : AtMost capacity wider)
    (hfits : ∀ n, wider = some n → ks'.length ≤ n) (key : κ) :
    (newest capacity (touch key ks)).Sublist (newest wider (touch key ks')) := by
  have hsub := touch_sublist_touch h.sublist key
  by_cases hroom : ∀ n, wider = some n → (touch key ks').length ≤ n
  · rw [newest_of_fits hroom]
    exact (newest_sublist _ _).trans hsub
  · push Not at hroom
    obtain ⟨n, rfl, hlong⟩ := hroom
    obtain ⟨m, hle, rfl⟩ := hmore n rfl
    have hfull := hfits n rfl
    have hnew' : key ∉ ks' := fun hmem => by
      rw [length_touch_of_mem hmem] at hlong
      omega
    have hlength' := length_touch_of_notMem hnew'
    have hlength := length_touch_of_notMem fun hmem => hnew' (h.sublist.subset hmem)
    have hmany : m ≤ ks.length := by
      rcases h.full_or_eq with ⟨k, hk, hmany⟩ | rfl
      · exact Option.some.inj hk ▸ hmany
      · omega
    change ((touch key ks).drop ((touch key ks).length - m)).Sublist
      ((touch key ks').drop ((touch key ks').length - n))
    rw [show (touch key ks').length - n = 1 by omega]
    exact (List.drop_sublist_drop_left _ (by omega)).trans (hsub.drop 1)

/-- What is asked for with success in both cases. -/
theorem Within.touch (h : Within capacity ks ks') (hmore : AtMost capacity wider)
    (hfits : ∀ n, wider = some n → ks'.length ≤ n) (key : κ) :
    Within capacity (newest capacity (touch key ks)) (newest wider (touch key ks')) where
  sublist := h.newest_sublist_newest hmore hfits key
  full_or_eq := by
    cases hcap : capacity with
    | none =>
      have hnone : wider = none := Option.eq_none_iff_forall_ne_some.mpr fun n hn => by
        obtain ⟨m, -, hm⟩ := hmore n hn
        rw [hcap] at hm
        cases hm
      have heq : ks = ks' := h.full_or_eq.resolve_left fun ⟨n, hn, _⟩ => by
        rw [hcap] at hn
        cases hn
      rw [hnone, heq]
      exact .inr rfl
    | some m =>
      rcases Nat.lt_or_ge (Gridding.touch key ks).length m with hlt | hge
      · have hle := length_le_length_touch key ks
        have heq : ks = ks' := h.full_or_eq.resolve_left fun ⟨n, hn, hmany⟩ => by
          obtain rfl := Option.some.inj (hcap.symm.trans hn)
          omega
        rw [← heq, newest_of_fits (hmore.fits hcap hlt.le),
          newest_of_fits fun n hn => Option.some.inj hn ▸ hlt.le]
        exact .inr rfl
      · refine .inl ⟨m, rfl, ?_⟩
        rw [newest, length_rtake]
        omega

/-- What is only asked for with success where there is more room. -/
theorem Within.touch_right (h : Within capacity ks ks')
    (hfits' : ∀ n, wider = some n → ks'.length ≤ n) (hnew : key ∉ ks) (hmem : key ∈ ks') :
    Within capacity ks (newest wider (Gridding.touch key ks')) := by
  have hfits : ∀ n, wider = some n → (Gridding.touch key ks').length ≤ n := fun n hn => by
    rw [length_touch_of_mem hmem]
    exact hfits' n hn
  have hsub := h.sublist.erase key
  rw [List.erase_of_not_mem hnew] at hsub
  rw [newest_of_fits hfits]
  exact ⟨hsub.trans (List.sublist_append_left _ _),
    .inl (h.full_or_eq.resolve_right fun heq => hnew (heq ▸ hmem))⟩

end Keys

/-! ## Keys that are kept -/

namespace Recent

variable {κ α : Type}

theorem keys_keepNewest (r : Recent κ α) (n : ℕ) : (r.keepNewest n).keys = r.keys.rtake n := by
  rw [keys, keepNewest, List.map_drop, keys, List.rtake, List.length_map, size]

variable [DecidableEq κ] {r : Recent κ α} {key : κ}

theorem mem_keys_iff : key ∈ r.keys ↔ ∃ a, r.find? key = some a := by
  rw [keys, List.mem_map]
  constructor
  · rintro ⟨⟨k, a⟩, hmem, rfl⟩
    exact exists_lookup_of_mem hmem
  · rintro ⟨a, ha⟩
    exact ⟨(key, a), mem_of_lookup ha, rfl⟩

theorem notMem_keys_iff : key ∉ r.keys ↔ r.find? key = none := by
  rw [mem_keys_iff, Option.eq_none_iff_forall_ne_some, not_exists]

theorem keys_refresh {a : α} (hnodup : r.keys.Nodup) (h : r.find? key = some a) :
    (r.refresh key).keys = touch key r.keys := by
  rw [refresh, h]
  change ((r.erase key).entries ++ [(key, a)]).map (·.1) = r.keys.erase key ++ [key]
  rw [List.map_append, hnodup.erase_eq_filter, keys, List.filter_map]
  rfl

theorem keys_set_of_absent {a : α} (h : r.find? key = none) :
    (r.set key a).keys = touch key r.keys := by
  rw [touch_of_notMem (notMem_keys_iff.mpr h), keys, set, Entries.put_of_lookup_eq_none h,
    List.map_append]
  rfl

end Recent

namespace Cache

variable {κ ε α : Type}

/-- A request of a thread, with what comes of computing the value of the key. -/
structure Request (κ ε α : Type) where
  thread : ℕ
  key : κ
  outcome : Except ε α

variable [DecidableEq κ] (refuse : CacheError κ → ε)

/-- The answer to a request that is made while nobody computes anything, and what is left of it. -/
def Request.serve (r : Request κ ε α) (c : Cache κ α) : Except ε α × Cache κ α :=
  let (answer, c, _) := fetch refuse r.thread r.key (fun (c, s) => (r.outcome, c, s)) (c, ())
  (answer, c)

/-- A cache with room for a number of values, or for any number. -/
def new (capacity : Option ℕ) : Cache κ α := empty (capacity.map Int.ofNat)

def serveAll (c : Cache κ α) (requests : List (Request κ ε α)) : Cache κ α :=
  requests.foldl (fun c r => (r.serve refuse c).2) c

/-- The keys of the requests that get a value, one after the other. -/
def succeeded (c : Cache κ α) : List (Request κ ε α) → List κ
  | [] => []
  | r :: requests =>
    match r.serve refuse c with
    | (.ok _, c) => r.key :: succeeded c requests
    | (.error _, c) => succeeded c requests

variable {refuse} {capacity : Option ℕ} {c : Cache κ α} {r : Request κ ε α}

/-- All that can come of a request while nobody computes anything. -/
inductive Serves (capacity : Option ℕ) (c : Cache κ α) (r : Request κ ε α) :
    Except ε α × Cache κ α → Prop where
  | found (a : α) (kept : c.kept.find? r.key = some a) :
    Serves capacity c r (.ok a, { c with kept := c.kept.refresh r.key, hits := c.hits + 1 })
  | failed (e : ε) (absent : c.kept.find? r.key = none) (outcome : r.outcome = .error e) :
    Serves capacity c r (.error e, { c with misses := c.misses + 1 })
  | computed (a : α) (absent : c.kept.find? r.key = none) (outcome : r.outcome = .ok a)
      (kept : Recent κ α) (keys : kept.keys = newest capacity (touch r.key c.kept.keys)) :
    Serves capacity c r (.ok a, { c with kept, misses := c.misses + 1 })

theorem serves_serve (hidle : c.flights = []) (hcap : c.capacity = capacity.map Int.ofNat) :
    Serves capacity c r (r.serve refuse c) := by
  obtain ⟨limit, kept, flights, hits, misses⟩ := c
  obtain rfl : flights = [] := hidle
  obtain rfl : limit = capacity.map Int.ofNat := hcap
  rw [Request.serve, fetch, request]
  dsimp only
  cases hkept : kept.find? r.key with
  | some a => exact .found a hkept
  | none =>
    -- the flight that takes off is the only one, so none is left when it lands
    have hlanded (f : Flight) :
        [(r.key, f)].filter (fun f : κ × Flight => !(f.1 == r.key)) = [] := by simp
    have hset (a : α) := Recent.keys_set_of_absent (a := a) hkept
    simp only [List.lookup_nil]
    cases houtcome : r.outcome with
    | error e =>
      simp only [land, abandon, hlanded]
      exact .failed e hkept houtcome
    | ok a =>
      simp only [land, settle, abandon, hlanded, evict]
      cases capacity with
      | none => exact .computed a hkept houtcome _ (hset a)
      | some n =>
        have hpos : ¬ Int.ofNat n < 0 := by simp
        simp only [Option.map_some, hpos, if_false]
        refine .computed a hkept houtcome ((kept.set r.key a).keepNewest n) ?_
        rw [Recent.keys_keepNewest, hset a]
        rfl

/-! ## Requests in order -/

/-- Nobody computes anything, and no more is kept than there is room for. -/
structure Resting (capacity : Option ℕ) (c : Cache κ α) : Prop where
  capacity_eq : c.capacity = capacity.map Int.ofNat
  flights_eq : c.flights = []
  nodup : c.kept.keys.Nodup
  fits : ∀ n, capacity = some n → c.kept.keys.length ≤ n

/-- A request gets a value, which is kept or comes of computing it. -/
def Succeeds (c : Cache κ α) (r : Request κ ε α) : Prop :=
  r.key ∈ c.kept.keys ∨ ∃ a, r.outcome = .ok a

omit [DecidableEq κ] in
theorem resting_empty (capacity : Option ℕ) :
    Resting capacity (new capacity : Cache κ α) :=
  ⟨rfl, rfl, List.nodup_nil, fun n _ => Nat.zero_le n⟩

theorem nodup_touch {ks : List κ} (h : ks.Nodup) (key : κ) : (touch key ks).Nodup := by
  rw [touch, ← List.concat_eq_append, List.nodup_concat]
  exact ⟨h.not_mem_erase, h.erase key⟩

/-- What a request does to the keys that are kept. -/
theorem Resting.serve (h : Resting capacity c) (refuse : CacheError κ → ε) (r : Request κ ε α) :
    ∃ answer c', r.serve refuse c = (answer, c') ∧ Resting capacity c' ∧
      ((∃ a, answer = .ok a) ∧ Succeeds c r ∧
          c'.kept.keys = newest capacity (touch r.key c.kept.keys) ∨
        (∃ e, answer = .error e) ∧ ¬ Succeeds c r ∧ c'.kept = c.kept) := by
  have hserves : Serves capacity c r (r.serve refuse c) := serves_serve h.flights_eq h.capacity_eq
  have hnodup := nodup_touch h.nodup r.key
  generalize r.serve refuse c = served at hserves
  cases hserves with
  | found a kept =>
    have hmem := Recent.mem_keys_iff.mpr ⟨a, kept⟩
    have hkeys := Recent.keys_refresh h.nodup kept
    have hfits : ∀ n, capacity = some n → (touch r.key c.kept.keys).length ≤ n := fun n hn => by
      rw [length_touch_of_mem hmem]
      exact h.fits n hn
    refine ⟨_, _, rfl, ⟨h.capacity_eq, h.flights_eq, ?_, ?_⟩, .inl ⟨⟨a, rfl⟩, .inl hmem, ?_⟩⟩
    · exact hkeys ▸ hnodup
    · exact hkeys ▸ hfits
    · exact hkeys.trans (newest_of_fits hfits).symm
  | failed e absent outcome =>
    refine ⟨_, _, rfl, ⟨h.capacity_eq, h.flights_eq, h.nodup, h.fits⟩, .inr ⟨⟨e, rfl⟩, ?_, rfl⟩⟩
    rintro (hmem | ⟨a, ha⟩)
    · exact Recent.notMem_keys_iff.mpr absent hmem
    · cases outcome.symm.trans ha
  | computed a absent outcome kept keys =>
    refine ⟨_, _, rfl, ⟨h.capacity_eq, h.flights_eq, ?_, ?_⟩,
      .inl ⟨⟨a, rfl⟩, .inr ⟨a, outcome⟩, keys⟩⟩
    · exact keys ▸ hnodup.sublist (newest_sublist _ _)
    · exact fun n hn => keys ▸ length_newest_le hn _

theorem serveAll_concat (c : Cache κ α) (requests : List (Request κ ε α)) (r : Request κ ε α) :
    serveAll refuse c (requests ++ [r]) = (r.serve refuse (serveAll refuse c requests)).2 :=
  List.foldl_concat _ _ _ _

theorem succeeded_of_ok {a : α} {c' : Cache κ α} (h : r.serve refuse c = (.ok a, c')) :
    succeeded refuse c [r] = [r.key] := by
  simp only [succeeded, h]

theorem succeeded_of_error {e : ε} {c' : Cache κ α} (h : r.serve refuse c = (.error e, c')) :
    succeeded refuse c [r] = [] := by
  simp only [succeeded, h]

theorem succeeded_append (c : Cache κ α) (before later : List (Request κ ε α)) :
    succeeded refuse c (before ++ later) =
      succeeded refuse c before ++ succeeded refuse (serveAll refuse c before) later := by
  induction before generalizing c with
  | nil => rfl
  | cons r before ih =>
    rw [List.cons_append, succeeded, succeeded, serveAll, List.foldl_cons]
    cases r.serve refuse c with
    | mk answer c' =>
      cases answer with
      | ok a => exact congrArg (r.key :: ·) (ih c')
      | error e => exact ih c'

/-- The keys that are kept are the newest of those asked for with success. -/
theorem keys_serveAll (refuse : CacheError κ → ε) (capacity : Option ℕ)
    (requests : List (Request κ ε α)) :
    Resting capacity (serveAll refuse (new capacity) requests) ∧
      (serveAll refuse (new capacity) requests).kept.keys = newest capacity
        (succeeded refuse (new capacity) requests).dedup := by
  induction requests using List.reverseRecOn with
  | nil =>
    have hempty : newest capacity ([] : List κ) = [] := newest_of_fits fun n _ => Nat.zero_le n
    exact ⟨resting_empty capacity, hempty.symm⟩
  | append_singleton requests r ih =>
    obtain ⟨hresting, hkeys⟩ := ih
    rw [serveAll_concat, succeeded_append]
    generalize serveAll refuse _ requests = c at hresting hkeys ⊢
    obtain ⟨answer, c', hserve, hresting', ⟨⟨a, rfl⟩, -, hkept⟩ | ⟨⟨e, rfl⟩, -, hkept⟩⟩ :=
      hresting.serve refuse r
    · rw [succeeded_of_ok hserve, hserve, dedup_concat]
      refine ⟨hresting', hkept.trans ?_⟩
      rw [hkeys, newest_touch_newest (List.nodup_dedup _)]
    · rw [succeeded_of_error hserve, hserve, List.append_nil]
      exact ⟨hresting', (congrArg Recent.keys hkept).trans hkeys⟩

/-- With more room, what is kept with less is kept as well. -/
theorem within_serveAll {wider : Option ℕ} (hmore : AtMost capacity wider)
    (requests : List (Request κ ε α)) :
    Within capacity (serveAll refuse (new capacity) requests).kept.keys
      (serveAll refuse (new wider) requests).kept.keys := by
  induction requests using List.reverseRecOn with
  | nil => exact ⟨List.Sublist.refl _, .inr rfl⟩
  | append_singleton requests r ih =>
    have hresting := (keys_serveAll refuse capacity requests).1
    have hresting' := (keys_serveAll refuse wider requests).1
    rw [serveAll_concat, serveAll_concat]
    generalize serveAll refuse (new capacity) requests = c at *
    generalize serveAll refuse (new wider) requests = d at *
    obtain ⟨answer, c', hserve, -, hcase⟩ := hresting.serve refuse r
    obtain ⟨answer', d', hserve', -, hcase'⟩ := hresting'.serve refuse r
    rw [hserve, hserve']
    rcases hcase with ⟨-, hsucceeds, hkeys⟩ | ⟨-, hfails, hkept⟩ <;>
      rcases hcase' with ⟨-, hsucceeds', hkeys'⟩ | ⟨-, hfails', hkept'⟩
    · rw [hkeys, hkeys']
      exact ih.touch hmore hresting'.fits r.key
    · exact absurd (hsucceeds.imp_left fun hmem => ih.sublist.subset hmem) hfails'
    · have hmem : r.key ∈ d.kept.keys := hsucceeds'.resolve_right fun ha => hfails (.inr ha)
      rw [hkept, hkeys']
      exact ih.touch_right hresting'.fits (fun h => hfails (.inl h)) hmem
    · rw [hkept, hkept']
      exact ih

/-- What is kept after some requests is what was asked for last. -/
structure KeepsNewest (refuse : CacheError κ → ε) (capacity : Option ℕ)
    (requests : List (Request κ ε α)) : Prop where
  keys_eq : (serveAll refuse (new capacity) requests).kept.keys =
    newest capacity (succeeded refuse (new capacity) requests).dedup
  size_eq : ∀ n, capacity = some n → (serveAll refuse (new capacity) requests).size =
    min n (succeeded refuse (new capacity) requests).dedup.length
  /-- With more room, a request finds a value if it does with less. -/
  found : ∀ wider, AtMost capacity wider → ∀ t key a,
    ((serveAll refuse (new capacity) requests).request t key).1 = .found a →
      ∃ b, ((serveAll refuse (new wider) requests).request t key).1 = .found b
  /-- A request without success leaves all that is kept in its place. -/
  failed : ∀ (r : Request κ ε α) (e : ε),
    (r.serve refuse (serveAll refuse (new capacity) requests)).1 = .error e →
      (r.serve refuse (serveAll refuse (new capacity) requests)).2.kept =
        (serveAll refuse (new capacity) requests).kept

theorem mem_keys_of_found {t : ℕ} {key : κ} {a : α} (h : (c.request t key).1 = .found a) :
    key ∈ c.kept.keys := by
  have hadmits := admits_request c t key
  generalize c.request t key = admitted at h hadmits
  cases hadmits with
  | found b kept => exact Recent.mem_keys_iff.mpr ⟨b, kept⟩
  | _ => cases h

theorem found_of_mem_keys (t : ℕ) {key : κ} (h : key ∈ c.kept.keys) :
    ∃ a, (c.request t key).1 = .found a := by
  obtain ⟨a, ha⟩ := Recent.mem_keys_iff.mp h
  rw [request, ha]
  exact ⟨a, rfl⟩

theorem keepsNewest_serveAll (refuse : CacheError κ → ε) (capacity : Option ℕ)
    (requests : List (Request κ ε α)) : KeepsNewest refuse capacity requests := by
  obtain ⟨hresting, hkeys⟩ := keys_serveAll refuse capacity requests
  refine ⟨hkeys, ?_, ?_, ?_⟩
  · rintro n rfl
    rw [← length_rtake]
    change _ = (newest (some n) _).length
    rw [← hkeys, Recent.keys, List.length_map]
    rfl
  · intro wider hmore t key a hfound
    exact found_of_mem_keys t ((within_serveAll hmore requests).sublist.subset
      (mem_keys_of_found hfound))
  · intro r e hanswer
    obtain ⟨answer, c', hserve, -, ⟨⟨a, rfl⟩, -⟩ | ⟨-, -, hkept⟩⟩ :=
      hresting.serve refuse r
    · rw [hserve] at hanswer
      cases hanswer
    · rw [hserve]
      exact hkept

/-- The value of 0 is found once more, so that of 1 is given up for that of 2. The failure leaves
both. -/
example : let requests : List (Request ℕ String ℕ) := [⟨0, 0, .ok 5⟩, ⟨0, 1, .ok 6⟩, ⟨1, 0, .ok 7⟩,
      ⟨0, 2, .ok 8⟩, ⟨0, 1, .error "failed"⟩]
    (serveAll (fun _ => "refused") (new (some 2)) requests).kept.entries = [(0, 5), (2, 8)] := by
  decide

end Cache

end Gridding
