import Gridding.Proofs.Allocation.Measured
import Gridding.Proofs.Allocation.Outcome
import Gridding.Proofs.Cache.Fetch
import Gridding.Proofs.Region.Mosaic
import Gridding.Proofs.Request.Evaluation
import Gridding.Request.Gridder

/-!
# Requests and leaves

A request for a shape comes to the sum of simple allocations, one for each leaf of its surrogate. A
cache that has kept only such sums for a surrogate and a shape goes on to do so, as long as no other
pair of surrogate and shape goes by the same key.
-/

namespace Gridding.Gridder

open Surrogate (AllocatesInTurn)

variable {σ ρ α β ε φ : Type} [Region ρ α φ] [Field α] [LinearOrder α] [BEq α] [Tally α]
  {g : Gridder σ ρ α β ε} {s : Surrogate σ α} {shape : Shape ρ} {d d' : Desk β}
  {ts : List (α × Allocation ρ α)}

/-! ## Simple allocations -/

omit [Region ρ α φ] [Field α] [LinearOrder α] [BEq α] [Tally α] in
theorem dataset_of_not_stores (h : g.stores = false) (l : Label) (source : σ) (d : Desk β) :
    g.dataset (φ := φ) shape l source d = ((g.granules l source shape).mapError .source, d) := by
  rw [dataset, h]
  rfl

theorem allocateSimple_stateless (h : g.stores = false) (l : Label) (source : σ) (d d' : Desk β) :
    (g.allocateSimple shape l source d).1 = (g.allocateSimple shape l source d').1 := by
  rw [allocateSimple, allocateSimple, dataset_of_not_stores h, dataset_of_not_stores h]
  cases g.granules l source shape <;> rfl

theorem allocateSimple_of_allocate (h : g.stores = false) {l : Label} {source : σ}
    {data : Dataset ρ α} {a : Allocation ρ α} (hdata : g.granules l source shape = .ok data)
    (ha : allocate g.workers shape g.grid data = .ok a) (d : Desk β) :
    g.allocateSimple shape l source d = (.ok a, d) := by
  rw [allocateSimple, dataset_of_not_stores h, hdata]
  simp only [Except.mapError, ha]

variable [LawfulBEq α]

theorem isOf_of_allocateSimple {l : Label} {source : σ} {a : Allocation ρ α}
    (h : g.allocateSimple shape l source d = (.ok a, d')) : a.IsOf shape g.grid := by
  rw [allocateSimple] at h
  split at h
  case h_1 => cases h
  case h_2 data d₁ hdata =>
    obtain ⟨ha, -⟩ := Prod.mk.inj h
    exact isOf_of_allocate (mapError_eq_ok.mp ha)

/-! ## Answers -/

variable [ExactTally α]

/-- The allocation is the sum of simple allocations that were made for the leaves in turn. -/
def Answers (g : Gridder σ ρ α β ε) (s : Surrogate σ α) (shape : Shape ρ) (a : Allocation ρ α) :
    Prop :=
  ∃ d ts d', AllocatesInTurn (g.allocateSimple shape) s.leaves d ts d' ∧ a.IsSum shape g.grid ts

/-- All that is kept for a surrogate and a shape answers requests for them. -/
def Faithful (g : Gridder σ ρ α β ε) (s : Surrogate σ α) (shape : Shape ρ)
    (cache : Cache String (Computed ρ α)) : Prop :=
  ∀ c, (g.cacheKey s shape, c) ∈ cache.kept.entries → g.Answers s shape c.allocation

/-- A request for a surrogate and a shape is not held up by another one and may rely on the cache. -/
structure Ready (g : Gridder σ ρ α β ε) (s : Surrogate σ α) (shape : Shape ρ)
    (cache : Cache String (Computed ρ α)) : Prop where
  faithful : g.Faithful s shape cache
  idle : cache.flights.lookup (g.cacheKey s shape) = none
  room : ∀ n, cache.capacity = some n → 0 ≤ n

/-- If the leaves can be allocated in turn, the surrogate can, to their sum. -/
theorem exists_compute (hs : s.HasComponents)
    (h : AllocatesInTurn (g.allocateSimple shape) s.leaves d ts d') :
    ∃ a, g.compute s shape d = (.ok ⟨d'.runs, a⟩, { d' with runs := d'.runs + 1 }) ∧
      a.IsSum shape g.grid ts := by
  have hplace : ∀ l source d a d', g.allocateSimple shape l source d = (.ok a, d') →
      a.setting = (g.grid.nx, g.grid.ny, some shape) := by
    intro l source d a d' hsimple
    exact (isOf_of_allocateSimple hsimple).setting
  obtain ⟨a, ha, hsetting, hsum⟩ : Surrogate.SumsTo (s.evaluate (g.allocateSimple shape) shape.key d)
      (g.grid.nx, g.grid.ny, some shape) ts d' := Surrogate.evaluate_of_leaves hplace s hs h
  refine ⟨a, ?_, hsum.isSum hsetting⟩
  rw [compute, ha]
  rfl

/-- What is computed comes from the leaves. -/
theorem answers_of_compute {c : Computed ρ α} (h : (g.compute s shape d).1 = .ok c) :
    g.Answers s shape c.allocation := by
  obtain ⟨a, ha, -⟩ := map_eq_ok.mp h
  have hevaluated : s.evaluate (g.allocateSimple shape) shape.key d =
      (.ok a, (s.evaluate (g.allocateSimple shape) shape.key d).2) :=
    Prod.ext (mapError_eq_ok.mp ha) rfl
  obtain ⟨hs, ts, hts⟩ := Surrogate.leaves_of_evaluate hevaluated
  obtain ⟨b, hb, hsum⟩ := exists_compute hs hts
  rw [hb] at h
  cases h
  exact ⟨d, ts, _, hts, hsum⟩

/-! ## Requests -/

section Requests

variable {cache : Cache String (Computed ρ α)} {key : Option String}

omit [LawfulBEq α] [ExactTally α] in
theorem faithful_empty (g : Gridder σ ρ α β ε) (s : Surrogate σ α) (shape : Shape ρ)
    (capacity : Option Int) : g.Faithful s shape (Cache.empty capacity) := by
  intro c hc
  exact absurd hc List.not_mem_nil

/-- A request for anything keeps a cache faithful to a surrogate and a shape that share their key
with no others. -/
theorem Faithful.request (h : g.Faithful s shape cache) {s' : Surrogate σ α}
    {shape' : Option (Shape ρ)}
    (hkeys : ∀ x ∈ shape', g.cacheKey s' x = g.cacheKey s shape → s' = s ∧ x = shape) :
    g.Faithful s shape (g.request s' shape' key (cache, d)).2.1 := by
  intro c hc
  cases shape' with
  | none => exact h c hc
  | some x =>
    rw [Gridder.request] at hc
    split at hc
    case isFalse => exact h c hc
    case isTrue =>
      have hmem := Cache.mem_fetch (r := (g.compute s' x d).1) (by exact fun _ => rfl) hc
      rcases hmem with hold | ⟨b, hb, heq⟩
      · exact h c hold
      · obtain ⟨hkey, rfl⟩ := Prod.mk.inj heq
        obtain ⟨rfl, rfl⟩ := hkeys x rfl hkey.symm
        exact answers_of_compute hb

/-- So do requests for many shapes, up to the first that fails. -/
theorem Faithful.requestAll {s' : Surrogate σ α} {shapes : List (String × Shape ρ)}
    (hkeys : ∀ k x, shapes.lookup k = some x → g.cacheKey s' x = g.cacheKey s shape →
      s' = s ∧ x = shape) (keys : List String) (done : List (String × Computed ρ α))
    {cache : Cache String (Computed ρ α)} {d : Desk β} (h : g.Faithful s shape cache) :
    g.Faithful s shape (g.requestAll s' shapes keys done (cache, d)).2.1 := by
  induction keys generalizing done cache d with
  | nil => exact h
  | cons k keys ih =>
    have hnext : g.Faithful s shape (g.request s' (shapes.lookup k) (some k) (cache, d)).2.1 :=
      h.request fun x hx => hkeys k x hx
    rw [Gridder.requestAll]
    split
    case h_1 e w herror =>
      rw [herror] at hnext
      exact hnext
    case h_2 c w hok =>
      rw [hok] at hnext
      exact ih _ hnext

/-- A request is answered by what has been kept or by the sum of the leaves as they are now. -/
theorem exists_request (hs : s.HasComponents)
    (hleaves : AllocatesInTurn (g.allocateSimple shape) s.leaves d ts d')
    (hcache : g.caches = true → g.Ready s shape cache) :
    ∃ c, (g.request s (some shape) key (cache, d)).1 = .ok c ∧
      (c.allocation.IsSum shape g.grid ts ∨
        g.caches = true ∧ cache.kept.find? (g.cacheKey s shape) = some c) := by
  obtain ⟨a, ha, hsum⟩ := exists_compute hs hleaves
  rw [request]
  split
  case isFalse =>
    simp only [ha]
    exact ⟨_, rfl, .inl hsum⟩
  case isTrue hcaches =>
    cases hkept : cache.kept.find? (g.cacheKey s shape) with
    | some c => exact ⟨c, Cache.fetch_of_kept hkept, .inr ⟨hcaches, rfl⟩⟩
    | none =>
      refine ⟨⟨d'.runs, a⟩, ?_, .inl hsum⟩
      apply Cache.fetch_of_idle hkept (hcache hcaches).idle (hcache hcaches).room
      intro cache
      simp only [ha]
      exact ⟨_, rfl⟩

/-- In either case it is answered by a sum of allocations of the leaves. -/
theorem exists_answer (hs : s.HasComponents)
    (hleaves : AllocatesInTurn (g.allocateSimple shape) s.leaves d ts d')
    (hcache : g.caches = true → g.Ready s shape cache) :
    ∃ c, (g.request s (some shape) key (cache, d)).1 = .ok c ∧ g.Answers s shape c.allocation := by
  obtain ⟨c, hc, hsum | ⟨hcaches, hkept⟩⟩ := exists_request hs hleaves hcache
  · exact ⟨c, hc, d, ts, d', hleaves, hsum⟩
  · exact ⟨c, hc, (hcache hcaches).faithful c (mem_of_lookup hkept)⟩

/-- Every request whose leaves can be allocated in turn is answered by the sum of allocations of the
leaves: those made now, unless the answer has been kept, and the same ones in any case if granules
are not stored. -/
theorem request_sum_of_leaves (hs : s.HasComponents)
    (hleaves : AllocatesInTurn (g.allocateSimple shape) s.leaves d ts d')
    (hcache : g.caches = true → g.Ready s shape cache) :
    ∃ c us, (g.request s (some shape) key (cache, d)).1 = .ok c ∧
      c.allocation.IsSum shape g.grid us ∧
      (∃ d₁ d₂, AllocatesInTurn (g.allocateSimple shape) s.leaves d₁ us d₂) ∧
      (g.caches = false ∨ cache.contains (g.cacheKey s shape) = false ∨ g.stores = false →
        us = ts) := by
  obtain ⟨c, hc, hsum | ⟨hcaches, hkept⟩⟩ := exists_request hs hleaves hcache
  · exact ⟨c, ts, hc, hsum, ⟨d, d', hleaves⟩, fun _ => rfl⟩
  · obtain ⟨d₁, us, d₂, hus, hsum⟩ := (hcache hcaches).faithful c (mem_of_lookup hkept)
    refine ⟨c, us, hc, hsum, ⟨d₁, d₂, hus⟩, ?_⟩
    rintro (hnot | hnot | hnot)
    · rw [hcaches] at hnot
      cases hnot
    · rw [Cache.contains, Recent.contains, hkept] at hnot
      cases hnot
    · exact hleaves.eq_of_stateless (allocateSimple_stateless hnot) hus

/-- A gridder of datasets of mosaics that needs no store. -/
def ofMosaics (nx ny : ℕ) (caches : Bool) : Gridder (Dataset Mosaic ℚ) Mosaic ℚ Unit Empty where
  grid := Mosaic.grid nx ny
  workers := 2
  tolerance := "0"
  granules _ data _ := .ok data
  encode _ := []
  decode _ := .ok ⟨[], 2⟩
  caches := caches
  stores := false

/-- The shape of two squares that allocations are requested for. -/
def twoSquares : Shape Mosaic := Mosaic.shape (Mosaic.rectangle 0 0 2 1)

/-- A dataset is allocated with its weight within the shape, and with shares of what is counted. -/
theorem exists_allocateSimple_ofMosaics (caches : Bool) (data : Dataset Mosaic ℚ)
    (hdim : ∀ g ∈ data.granules, Region.dimension g.footprint ≤ data.dimension)
    (hweight : ∀ g ∈ data.granules, 0 ≤ g.weight) :
    ∃ a, (∀ l d, (ofMosaics 2 1 caches).allocateSimple twoSquares l data d = (.ok a, d)) ∧
      a.totalWeight = Engine.weightWithin Mosaic.pieces Mosaic.content data
        twoSquares.footprint.pieces ∧
      (a.totalWeight ≠ 0 → a.total = .ok ((data.granules.map fun g => g.weight *
        Engine.countedOf Mosaic.pieces Mosaic.content twoSquares (Mosaic.grid 2 1) data.dimension
          g).sum / a.totalWeight)) := by
  obtain ⟨a, ha, htotal, -, hsum⟩ := Engine.exists_allocation Mosaic.measured.toPlaced 2
    twoSquares (Mosaic.grid 2 1) (Mosaic.measured.isGauged hdim) hweight
  exact ⟨a, fun l d => allocateSimple_of_allocate rfl rfl ha d, htotal, hsum⟩

def whole : Surrogate (Dataset Mosaic ℚ) ℚ := .simple ⟨"USA", "100", "Whole"⟩ Mosaic.areas

def edge : Surrogate (Dataset Mosaic ℚ) ℚ := .simple ⟨"USA", "200", "Edge"⟩ (Mosaic.line 0 3)

/-- A half of one surrogate and a quarter of another one that is merged itself, in part of the first
one again. -/
def mixed : Surrogate (Dataset Mosaic ℚ) ℚ :=
  .merged ⟨"USA", "900", "Mixed"⟩
    [(whole, 1 / 2), (.merged ⟨"USA", "800", "Inner"⟩ [(edge, 2), (whole, 3)], 1 / 4)]

theorem request_sum_of_leaves_mixed : ∃ c,
    ((ofMosaics 2 1 true).request mixed (some twoSquares) none
      (Cache.empty none, ⟨.empty, 0⟩)).1 = .ok c ∧ c.allocation.totalWeight = 17 / 4 := by
  obtain ⟨a, ha, hatotal, -⟩ :=
    exists_allocateSimple_ofMosaics true Mosaic.areas (by decide) (by decide)
  obtain ⟨b, hb, hbtotal, -⟩ :=
    exists_allocateSimple_ofMosaics true (Mosaic.line 0 3) (by decide) (by decide)
  have hleaves : AllocatesInTurn ((ofMosaics 2 1 true).allocateSimple twoSquares) mixed.leaves
      ⟨.empty, 0⟩ _ ⟨.empty, 0⟩ :=
    .cons (ha _ _) (.cons (hb _ _) (.cons (ha _ _) (.nil _)))
  have hs : mixed.HasComponents := by
    simp [mixed, whole, edge, Surrogate.HasComponents, Surrogate.AllHaveComponents]
  obtain ⟨c, us, hc, hsum, -, hus⟩ := request_sum_of_leaves hs hleaves
    fun _ => ⟨faithful_empty _ _ _ none, rfl, by simp [Cache.empty]⟩
  refine ⟨c, hc, ?_⟩
  have ha' : a.totalWeight = 3 := hatotal.trans (by decide +kernel)
  have hb' : b.totalWeight = 1 := hbtotal.trans (by decide +kernel)
  rw [hsum.totalWeight, hus (.inr (.inr rfl))]
  simp [ha', hb', Leaf.scale]
  norm_num

/-- One component has no components of its own. -/
def headless : Surrogate (Dataset Mosaic ℚ) ℚ :=
  .merged ⟨"USA", "901", "Headless"⟩ [(whole, 1), (.merged ⟨"USA", "902", "Empty"⟩ [], 1)]

/-- A merged surrogate without components fails, though it has no leaf that could. And where two
surrogates have one identifier, the second may be answered by the allocation of the first. -/
theorem request_not_sum_of_leaves :
    ((∃ ts, AllocatesInTurn ((ofMosaics 2 1 false).allocateSimple twoSquares) headless.leaves
        ⟨.empty, 0⟩ ts ⟨.empty, 0⟩) ∧
      ((ofMosaics 2 1 false).request headless (some twoSquares) none
        (Cache.empty none, ⟨.empty, 0⟩)).1 =
          .error (.computation ⟨"USA902", "S", .noComponents "Empty"⟩)) ∧
    ∃ b c w, (∀ d, (ofMosaics 2 1 true).allocateSimple twoSquares whole.label (Mosaic.line 0 3) d =
        (.ok b, d)) ∧
      (ofMosaics 2 1 true).request whole (some twoSquares) none (Cache.empty none, ⟨.empty, 0⟩) =
        (.ok c, w) ∧
      ((ofMosaics 2 1 true).request (.simple whole.label (Mosaic.line 0 3)) (some twoSquares) none
        w).1 = .ok c ∧
      c.allocation.totalWeight = 3 ∧ b.totalWeight = 1 := by
  constructor
  · obtain ⟨a, ha, -⟩ :=
      exists_allocateSimple_ofMosaics false Mosaic.areas (by decide) (by decide)
    refine ⟨⟨_, .cons (ha _ _) (.nil _)⟩, ?_⟩
    have hfails : headless.evaluate ((ofMosaics 2 1 false).allocateSimple twoSquares) "S"
        ⟨.empty, 0⟩ = (.error ⟨"USA902", "S", .noComponents "Empty"⟩, ⟨.empty, 0⟩) := by
      simp only [headless, whole, Surrogate.evaluate, Surrogate.evaluateAll, ha]
      rfl
    change (Except.map _ (Except.mapError _ (headless.evaluate _ "S" _).1)) = _
    rw [hfails]
    rfl
  · obtain ⟨a, ha, hatotal, -⟩ :=
      exists_allocateSimple_ofMosaics true Mosaic.areas (by decide) (by decide)
    obtain ⟨b, hb, hbtotal, -⟩ :=
      exists_allocateSimple_ofMosaics true (Mosaic.line 0 3) (by decide) (by decide)
    have hfirst : (ofMosaics 2 1 true).compute whole twoSquares ⟨.empty, 0⟩ =
        (.ok ⟨0, a⟩, ⟨.empty, 1⟩) := by
      simp only [compute, whole, Surrogate.evaluate, ha]
      rfl
    have hcaches : (ofMosaics 2 1 true).caches = true := rfl
    have hrequest : (ofMosaics 2 1 true).request whole (some twoSquares) none
        (Cache.empty none, ⟨.empty, 0⟩) = (.ok ⟨0, a⟩,
          ⟨none, ⟨[((ofMosaics 2 1 true).cacheKey whole twoSquares, ⟨0, a⟩)]⟩, [], 0, 1⟩,
          ⟨.empty, 1⟩) := by
      rw [request, if_pos hcaches, Cache.fetch]
      simp [Cache.request, Cache.empty, Recent.find?, hfirst, Cache.land, Cache.settle,
        Cache.abandon, Cache.evict, Recent.set, Entries.put]
    refine ⟨b, _, _, fun d => hb _ d, hrequest, ?_, hatotal.trans (by decide +kernel),
      hbtotal.trans (by decide +kernel)⟩
    rw [request, if_pos hcaches]
    exact Cache.fetch_of_kept List.lookup_cons_self

end Requests

end Gridding.Gridder
