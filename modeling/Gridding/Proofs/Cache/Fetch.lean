import Gridding.Proofs.Cache.Turns

/-!
# What one thread gets

A value that is kept is handed out; one that is not, and that nobody computes, is computed, handed
out and kept. A computation that leaves the cache alone adds nothing to it but its value.
-/

namespace Gridding.Cache

variable {κ α σ ε : Type} [BEq κ] {refuse : CacheError κ → ε} {key : κ} {a : α}

/-- A value can be kept if there is no limit or one that is not negative. -/
theorem land_ok {c : Cache κ α} (hcap : ∀ n, c.capacity = some n → 0 ≤ n) :
    (land refuse key (.ok a) c).1 = .ok a := by
  obtain ⟨r, kept, hsettle, herror, -⟩ := settle_eq c key a
  simp only [land, hsettle]
  cases r with
  | ok _ => rfl
  | error e =>
    obtain ⟨n, hneg, hn⟩ := herror ⟨e, rfl⟩
    exact absurd (hcap n hn) (Int.not_le.mpr hneg)

theorem mem_land {c : Cache κ α} {r : Except ε α} {e : κ × α}
    (h : e ∈ (land refuse key r c).2.kept.entries) :
    e ∈ c.kept.entries ∨ ∃ a, r = .ok a ∧ e = (key, a) := by
  cases r with
  | error err => exact .inl h
  | ok a =>
    obtain ⟨r, kept, hsettle, -, hmem, -⟩ := settle_eq c key a
    simp only [land, hsettle] at h
    refine (hmem e ?_).imp_right fun heq => ⟨a, rfl, heq⟩
    cases r <;> exact h

section Fetch

variable {c : Cache κ α} {s s' : σ} {t : Nat} {compute : Action κ α σ ε}

theorem fetch_of_kept (h : c.kept.find? key = some a) :
    (fetch refuse t key compute (c, s)).1 = .ok a := by
  rw [fetch, request, h]

theorem fetch_of_idle (habsent : c.kept.find? key = none) (hidle : c.flights.lookup key = none)
    (hcap : ∀ n, c.capacity = some n → 0 ≤ n)
    (hcompute : ∀ c, ∃ s', compute (c, s) = (.ok a, c, s')) :
    (fetch refuse t key compute (c, s)).1 = .ok a := by
  obtain ⟨s', hs'⟩ := hcompute { c with
    flights := (key, ⟨t, c.misses⟩) :: c.flights, misses := c.misses + 1 }
  rw [fetch, request, habsent, hidle]
  simp only [hs']
  exact land_ok hcap

/-- What is kept was kept before or is what the computation gave. -/
theorem mem_fetch [LawfulBEq κ] {r : Except ε α} (hcompute : ∀ c, compute (c, s) = (r, c, s'))
    {e : κ × α} (h : e ∈ (fetch refuse t key compute (c, s)).2.1.kept.entries) :
    e ∈ c.kept.entries ∨ ∃ a, r = .ok a ∧ e = (key, a) := by
  have hadmits := admits_request c t key
  rw [fetch] at h
  generalize c.request t key = admitted at h hadmits
  cases hadmits with
  | found b kept => exact .inl (Recent.mem_refresh h)
  | refused f absent flight own => exact .inl h
  | joined f absent flight other => exact .inl h
  | started absent idle =>
    simp only [hcompute] at h
    have hland := mem_land h
    exact hland

variable (refuse key)

theorem land_eq {c : Cache κ α} (hcap : ∀ n, c.capacity = some n → 0 ≤ n) (r : Except ε α) :
    ∃ kept, land refuse key r c = (r, { c.abandon key with kept }) := by
  cases r with
  | error e => exact ⟨c.kept, rfl⟩
  | ok a =>
    have hanswer : (land refuse key (.ok a) c).1 = .ok a := land_ok hcap
    obtain ⟨r, kept, hsettle, -, -, -⟩ := settle_eq c key a
    refine ⟨kept, Prod.ext hanswer ?_⟩
    simp only [land, hsettle]
    cases r <;> rfl

/-- With nobody else about, a value that is not kept is computed, and nobody computes anything
afterwards. -/
theorem fetch_cases [LawfulBEq κ] (t : Nat) {r : Except ε α} (hidle : c.flights = [])
    (hcap : ∀ n, c.capacity = some n → 0 ≤ n) (hcompute : ∀ c, compute (c, s) = (r, c, s')) :
    ∃ c', c'.flights = [] ∧ c'.capacity = c.capacity ∧
      ((∃ a, c.kept.find? key = some a ∧ fetch refuse t key compute (c, s) = (.ok a, c', s)) ∨
        fetch refuse t key compute (c, s) = (r, c', s')) := by
  cases hkept : c.kept.find? key with
  | some a =>
    refine ⟨{ c with kept := c.kept.refresh key, hits := c.hits + 1 }, hidle, rfl,
      .inl ⟨a, rfl, ?_⟩⟩
    rw [fetch, request, hkept]
  | none =>
    have habsent : c.flights.lookup key = none := by
      rw [hidle]
      rfl
    let started : Cache κ α :=
      { c with flights := (key, ⟨t, c.misses⟩) :: c.flights, misses := c.misses + 1 }
    have hroom : ∀ n, started.capacity = some n → 0 ≤ n := hcap
    obtain ⟨kept, hland⟩ := land_eq refuse key hroom r
    have hflights : (started.abandon key).flights = [] := by
      simp [started, abandon, hidle]
    refine ⟨{ started.abandon key with kept }, hflights, rfl, .inr ?_⟩
    rw [fetch, request, hkept, habsent]
    simp only [hcompute]
    rw [hland]

end Fetch

end Gridding.Cache
