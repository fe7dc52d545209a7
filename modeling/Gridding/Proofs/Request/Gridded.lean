import Gridding.Proofs.Allocation.Dense
import Gridding.Proofs.Request.Gridder

/-!
# Tables of requests

The table for a shape that the grid covers adds up to one if the first leaf has any weight within the
shape. If it has none but another leaf has cells, the shape counts as not covered, and the table is
left with the weights that the other leaves give it.
-/

namespace Gridding

variable {ρ α φ : Type}

/-- Nothing is allocated, or the whole of a shape. -/
def Dense.IsWhole [AddMonoid α] [One α] (d : Dense α) : Prop :=
  d = ⟨none, false⟩ ∨ ∃ rows, d = ⟨some rows, true⟩ ∧ rows.flatten.sum = 1

/-- A grid whose cells all have places in a table of its size. -/
structure Grid.Tabled (grid : Grid ρ α) : Prop where
  nx_nonneg : 0 ≤ grid.nx
  ny_nonneg : 0 ≤ grid.ny
  places : ∀ c ∈ grid.cells, Allocation.HasPlace grid.nx grid.ny c

namespace Allocation

variable [Field α] [Tally α] {shape : Shape ρ} {grid : Grid ρ α} {a : Allocation ρ α}
  {ts : List (α × Allocation ρ α)}

omit [Tally α] in
theorem weightSum_eq_zero_iff [LinearOrder α] [IsStrictOrderedRing α]
    (h : ∀ c ∈ a.cells, 0 < c.weight) : a.weightSum = 0 ↔ a.cells = [] := by
  constructor
  · intro hzero
    by_contra hne
    have hpos : 0 < a.weightSum := by
      apply List.sum_pos
      · intro w hw
        obtain ⟨c, hc, rfl⟩ := List.mem_map.mp hw
        exact h c hc
      · simpa using hne
    exact hpos.ne' hzero
  · intro hempty
    rw [weightSum, hempty]
    rfl

namespace IsSum

theorem weightSum (h : a.IsSum shape grid ts) :
    a.weightSum = (ts.map fun t => t.1 * t.2.weightSum).sum := by
  have hscaled (t : α × Allocation ρ α) :
      ((t.2.scaledCells t.1).map (·.weight)).sum = t.1 * t.2.weightSum := by
    rw [Allocation.weightSum, scaledCells, List.map_map, ← List.sum_map_mul_left]
    refine congrArg List.sum (List.map_congr_left fun c _ => ?_)
    exact mul_comm c.weight t.1
  rw [Allocation.weightSum, h.cells, List.map_flatMap, sum_flatMap]
  exact congrArg List.sum (List.map_congr_left fun t _ => hscaled t)

theorem cells_eq_nil_iff (h : a.IsSum shape grid ts) : a.cells = [] ↔ ∀ t ∈ ts, t.2.cells = [] := by
  rw [h.cells, List.flatMap_eq_nil_iff]
  exact forall₂_congr fun t _ => List.map_eq_nil_iff

variable [LinearOrder α] [Region ρ α φ]

/-- A sum covers the shape if its first term has any weight within it. -/
theorem covered_iff (h : a.IsSum shape grid ts) (hterms : ∀ t ∈ ts, t.2.IsOf shape grid)
    (hcovers : grid.covers shape.footprint = .ok true) :
    a.covered = true ↔ ∃ t ∈ ts.head?, t.2.totalWeight ≠ 0 := by
  cases ts with
  | nil => cases h.covered
  | cons t ts =>
    have hfirst : t.2.covered = a.covered := Option.some.inj h.covered
    simp only [List.head?_cons, Option.mem_some_iff, exists_eq_left']
    rw [← hfirst]
    rcases (hterms t List.mem_cons_self).covered with ⟨hzero, -, hcovered⟩ | ⟨hne, hcovered⟩
    · simp [hzero, hcovered]
    · rw [hcovers] at hcovered
      simp [hne, ← Except.ok.inj hcovered]

variable [IsStrictOrderedRing α]

/-- Cells of a sum under positive factors are cells of the grid with positive weights. -/
theorem of_mem_cells (h : a.IsSum shape grid ts) (hterms : ∀ t ∈ ts, t.2.IsOf shape grid)
    (hfactors : ∀ t ∈ ts, 0 < t.1) {c : Cell ρ α} (hc : c ∈ a.cells) :
    0 < c.weight ∧ ∃ k ∈ grid.cells, k.row = c.row ∧ k.col = c.col := by
  rw [h.cells] at hc
  obtain ⟨t, ht, hc⟩ := List.mem_flatMap.mp hc
  obtain ⟨c', hc', rfl⟩ := List.mem_map.mp hc
  obtain ⟨k, hk, w, hw, rfl⟩ := (hterms t ht).cells c' hc'
  exact ⟨mul_pos hw (hfactors t ht), k, hk, rfl, rfl⟩

/-- The table of a sum under positive factors, for a shape that the grid covers: there is none, or it
is scaled to one since the first term covers the shape, or it is left as it is. -/
theorem exists_table [BEq α] [LawfulBEq α] [ExactTally α] (h : a.IsSum shape grid ts)
    (hterms : ∀ t ∈ ts, t.2.IsOf shape grid) (hfactors : ∀ t ∈ ts, 0 < t.1)
    (hcovers : grid.covers shape.footprint = .ok true) (hgrid : grid.Tabled) :
    ∃ table, a.dense = .ok table ∧
      ((∀ t ∈ ts, t.2.cells = []) ∧ table = ⟨none, false⟩ ∨
        ¬ (∀ t ∈ ts, t.2.cells = []) ∧ ∃ rows,
          ((∃ t ∈ ts.head?, t.2.totalWeight ≠ 0) ∧ table = ⟨some rows, true⟩ ∧
            rows.flatten.sum = 1 ∨
          ¬ (∃ t ∈ ts.head?, t.2.totalWeight ≠ 0) ∧ table = ⟨some rows, false⟩ ∧
            rows.flatten.sum = (ts.map fun t => t.1 * t.2.weightSum).sum)) := by
  have hinside : ∀ c ∈ a.cells, HasPlace a.nx a.ny c := by
    intro c hc
    obtain ⟨-, k, hk, hrow, hcol⟩ := h.of_mem_cells hterms hfactors hc
    have hplace := hgrid.places k hk
    rw [h.nx, h.ny]
    rwa [HasPlace, hrow, hcol] at hplace
  have hempty : a.weightSum = 0 ↔ ∀ t ∈ ts, t.2.cells = [] :=
    (weightSum_eq_zero_iff fun c hc => (h.of_mem_cells hterms hfactors hc).1).trans
      h.cells_eq_nil_iff
  have hcovered := h.covered_iff hterms hcovers
  rcases exists_dense (h.nx ▸ hgrid.nx_nonneg) (h.ny ▸ hgrid.ny_nonneg) hinside with
    ⟨hzero, hdense⟩ | ⟨hne, rows, hdense, hrows⟩
  · exact ⟨_, hdense, .inl ⟨hempty.mp hzero, rfl⟩⟩
  · refine ⟨_, hdense, .inr ⟨mt hempty.mpr hne, rows, ?_⟩⟩
    cases hflag : a.covered with
    | true =>
      rw [hflag, if_pos rfl] at hrows
      exact .inl ⟨hcovered.mp hflag, rfl, hrows⟩
    | false =>
      rw [hflag, if_neg Bool.false_ne_true, h.weightSum] at hrows
      exact .inr ⟨mt hcovered.mpr (by rw [hflag]; exact Bool.false_ne_true), rfl, hrows⟩

end IsSum

end Allocation

namespace Gridder

open Surrogate (AllocatesInTurn)

variable {σ β ε : Type} [Region ρ α φ] [Field α] [LinearOrder α] [IsStrictOrderedRing α] [BEq α]
  [LawfulBEq α] [Tally α] [ExactTally α] {g : Gridder σ ρ α β ε} {s : Surrogate σ α}
  {shape : Shape ρ} {d d' : Desk β} {ts : List (α × Allocation ρ α)}
  {cache : Cache String (Computed ρ α)}

omit [IsStrictOrderedRing α] [LawfulBEq α] [ExactTally α] in
theorem gridded_of_request {c : Computed ρ α} {table : Dense α}
    (hc : (g.request s (some shape) none (cache, d)).1 = .ok c)
    (hdense : c.allocation.dense = .ok table) :
    (g.gridded s (some shape) (cache, d)).1 = .ok table := by
  rw [gridded]
  split
  case h_1 e w herror =>
    rw [herror] at hc
    cases hc
  case h_2 c' w hok =>
    rw [hok] at hc
    cases hc
    simp only [hdense, Except.mapError]

/-- A shape that the grid covers is allocated as a whole or not at all if the first leaf has weight
within it or no leaf has a cell. Otherwise its table has what the leaves have, and counts as not
covered. -/
theorem gridded_whole_iff (hs : s.HasComponents)
    (hleaves : AllocatesInTurn (g.allocateSimple shape) s.leaves d ts d')
    (hcache : g.caches = true → g.Ready s shape cache)
    (hcovers : g.grid.covers shape.footprint = .ok true) (hgrid : g.grid.Tabled)
    (hfactors : ∀ l ∈ s.leaves, 0 < l.factor) :
    ∃ table us, (g.gridded s (some shape) (cache, d)).1 = .ok table ∧
      (∃ d₁ d₂, AllocatesInTurn (g.allocateSimple shape) s.leaves d₁ us d₂) ∧
      (table.IsWhole ↔ (∀ u ∈ us, u.2.cells = []) ∨ ∃ u ∈ us.head?, u.2.totalWeight ≠ 0) ∧
      (¬ table.IsWhole → ∃ rows, table = ⟨some rows, false⟩ ∧
        rows.flatten.sum = (us.map fun u => u.1 * u.2.weightSum).sum) := by
  obtain ⟨c, hc, d₁, us, d₂, hus, hsum⟩ := exists_answer hs hleaves hcache
  have hterms : ∀ u ∈ us, u.2.IsOf shape g.grid :=
    hus.forall_mem fun _ _ _ _ _ hsimple => isOf_of_allocateSimple hsimple
  have hpositive : ∀ u ∈ us, 0 < u.1 := by
    intro u hu
    have hmem : u.1 ∈ s.leaves.map (·.factor) := hus.map_factor ▸ List.mem_map_of_mem hu
    obtain ⟨l, hl, hfactor⟩ := List.mem_map.mp hmem
    exact hfactor ▸ hfactors l hl
  obtain ⟨table, hdense, htable⟩ := hsum.exists_table hterms hpositive hcovers hgrid
  refine ⟨table, us, gridded_of_request hc hdense, ⟨d₁, d₂, hus⟩, ?_⟩
  rcases htable with ⟨hempty, rfl⟩ | ⟨hcells, rows, ⟨hfirst, rfl, hrows⟩ | ⟨hfirst, rfl, hrows⟩⟩
  · have hwhole : Dense.IsWhole (⟨none, false⟩ : Dense α) := .inl rfl
    exact ⟨iff_of_true hwhole (.inl hempty), fun hnot => absurd hwhole hnot⟩
  · have hwhole : Dense.IsWhole ⟨some rows, true⟩ := .inr ⟨rows, rfl, hrows⟩
    exact ⟨iff_of_true hwhole (.inr hfirst), fun hnot => absurd hwhole hnot⟩
  · have hnot : ¬ Dense.IsWhole ⟨some rows, false⟩ := by
      rintro (hnone | ⟨rows', hsome, -⟩)
      · cases hnone
      · cases hsome
    refine ⟨iff_of_false hnot ?_, fun _ => ⟨rows, rfl, hrows⟩⟩
    rintro (hempty | hfirst')
    · exact hcells hempty
    · exact hfirst hfirst'

/-! ## Halves -/

/-- Two datasets in equal parts. -/
def halves (x y : Dataset Mosaic ℚ) : Surrogate (Dataset Mosaic ℚ) ℚ :=
  .merged ⟨"USA", "903", "Halves"⟩
    [(.simple ⟨"USA", "101", "First"⟩ x, 1 / 2), (.simple ⟨"USA", "102", "Second"⟩ y, 1 / 2)]

/-- A dataset with nothing to find anywhere. -/
def nowhere : Dataset Mosaic ℚ := ⟨[], 2⟩

theorem hasComponents_halves (x y : Dataset Mosaic ℚ) : (halves x y).HasComponents := by
  simp [halves, Surrogate.HasComponents, Surrogate.AllHaveComponents]

theorem tabled_grid : (Mosaic.grid 2 1).Tabled := ⟨by decide, by decide, by decide⟩

theorem covers_twoSquares : (Mosaic.grid 2 1).covers twoSquares.footprint = .ok true := by
  have hoption : ((Mosaic.grid 2 1).covers twoSquares.footprint).toOption = some true := by
    decide +kernel
  cases hcovers : (Mosaic.grid 2 1).covers twoSquares.footprint with
  | error e =>
    rw [hcovers] at hoption
    cases hoption
  | ok b =>
    rw [hcovers] at hoption
    exact congrArg Except.ok (Option.some.inj hoption)

/-- The table of two halves, one of which has cells. -/
theorem exists_gridded_halves {x y : Dataset Mosaic ℚ} {a b : Allocation Mosaic ℚ}
    (ha : ∀ l d, (ofMosaics 2 1 false).allocateSimple twoSquares l x d = (.ok a, d))
    (hb : ∀ l d, (ofMosaics 2 1 false).allocateSimple twoSquares l y d = (.ok b, d))
    (hcells : a.cells ≠ [] ∨ b.cells ≠ []) :
    ∃ table rows, ((ofMosaics 2 1 false).gridded (halves x y) (some twoSquares)
        (Cache.empty none, ⟨.empty, 0⟩)).1 = .ok table ∧
      (a.totalWeight ≠ 0 ∧ table = ⟨some rows, true⟩ ∧ rows.flatten.sum = 1 ∨
        a.totalWeight = 0 ∧ table = ⟨some rows, false⟩ ∧
          rows.flatten.sum = 1 / 2 * a.weightSum + 1 / 2 * b.weightSum) := by
  have hleaves : AllocatesInTurn ((ofMosaics 2 1 false).allocateSimple twoSquares)
      (halves x y).leaves ⟨.empty, 0⟩ [(1 * (1 / 2), a), (1 * (1 / 2), b)] ⟨.empty, 0⟩ :=
    .cons (ha _ _) (.cons (hb _ _) (.nil _))
  obtain ⟨c, hc, hsum | ⟨hcaches, -⟩⟩ := exists_request (hasComponents_halves x y) hleaves
    fun h => by cases h
  case inr => cases hcaches
  have hterms := hleaves.forall_mem fun _ _ _ _ _ hsimple => isOf_of_allocateSimple hsimple
  obtain ⟨table, hdense, ⟨hempty, -⟩ | ⟨-, rows, hrows⟩⟩ := hsum.exists_table hterms
    (by simp) covers_twoSquares tabled_grid
  · have hnone : a.cells = [] ∧ b.cells = [] := by simpa using hempty
    rcases hcells with hne | hne
    · exact absurd hnone.1 hne
    · exact absurd hnone.2 hne
  · refine ⟨table, rows, gridded_of_request hc hdense, ?_⟩
    simpa using hrows

/-- What is there is allocated as a whole if it comes first. -/
theorem gridded_whole_iff_halves : ∃ table,
    ((ofMosaics 2 1 false).gridded (halves Mosaic.areas nowhere) (some twoSquares)
      (Cache.empty none, ⟨.empty, 0⟩)).1 = .ok table ∧ table.IsWhole := by
  obtain ⟨a, ha, hatotal, -⟩ :=
    exists_allocateSimple_ofMosaics false Mosaic.areas (by decide) (by decide)
  obtain ⟨b, hb, -⟩ := exists_allocateSimple_ofMosaics false nowhere (by decide) (by decide)
  have hleaves : AllocatesInTurn ((ofMosaics 2 1 false).allocateSimple twoSquares)
      (halves Mosaic.areas nowhere).leaves ⟨.empty, 0⟩ _ ⟨.empty, 0⟩ :=
    .cons (ha _ _) (.cons (hb _ _) (.nil _))
  obtain ⟨table, us, htable, ⟨d₁, d₂, hus⟩, hwhole, -⟩ := gridded_whole_iff
    (hasComponents_halves _ _) hleaves (fun h => by cases h) covers_twoSquares tabled_grid
    (by decide +kernel)
  refine ⟨table, htable, hwhole.mpr (.inr ?_)⟩
  rw [hleaves.eq_of_stateless (allocateSimple_stateless rfl) hus]
  refine ⟨_, rfl, ?_⟩
  have ha' : a.totalWeight = 3 := hatotal.trans (by decide +kernel)
  rw [ha']
  norm_num

/-- The other way around, half of a shape that the grid covers is lost. -/
theorem gridded_halves_not_whole :
    (Mosaic.grid 2 1).covers twoSquares.footprint = .ok true ∧
    (∃ rows, ((ofMosaics 2 1 false).gridded (halves nowhere Mosaic.areas) (some twoSquares)
      (Cache.empty none, ⟨.empty, 0⟩)).1 = .ok ⟨some rows, false⟩ ∧ rows.flatten.sum = 1 / 2) ∧
    ∃ rows, ((ofMosaics 2 1 false).gridded (halves Mosaic.areas nowhere) (some twoSquares)
      (Cache.empty none, ⟨.empty, 0⟩)).1 = .ok ⟨some rows, true⟩ ∧ rows.flatten.sum = 1 := by
  obtain ⟨a, ha, hatotal, hasum⟩ :=
    exists_allocateSimple_ofMosaics false Mosaic.areas (by decide) (by decide)
  obtain ⟨b, hb, hbtotal, -⟩ := exists_allocateSimple_ofMosaics false nowhere (by decide) (by decide)
  have ha' : a.totalWeight = 3 := hatotal.trans (by decide +kernel)
  have hb' : b.totalWeight = 0 := hbtotal.trans (by decide +kernel)
  have hweights : a.weightSum = 1 := by
    have hcounted : (Mosaic.areas.granules.map fun g => g.weight * Engine.countedOf Mosaic.pieces
        Mosaic.content twoSquares (Mosaic.grid 2 1) Mosaic.areas.dimension g).sum = 3 := by
      decide +kernel
    have htotal := hasum (by rw [ha']; norm_num)
    rw [hcounted, ha'] at htotal
    exact (Except.ok.inj htotal).trans (by norm_num)
  have hnone : b.weightSum = 0 := by
    rcases (isOf_of_allocateSimple (hb ⟨"USA", "101", "First"⟩ ⟨.empty, 0⟩)).covered with h | h
    · rw [Allocation.weightSum, h.2.1]
      rfl
    · exact absurd hb' h.1
  have hcells : a.cells ≠ [] := by
    intro hempty
    rw [Allocation.weightSum, hempty] at hweights
    cases hweights
  refine ⟨covers_twoSquares, ?_, ?_⟩
  · obtain ⟨table, rows, htable, ⟨hne, -⟩ | ⟨-, rfl, hrows⟩⟩ :=
      exists_gridded_halves hb ha (.inr hcells)
    · exact absurd hb' hne
    · refine ⟨rows, htable, hrows.trans ?_⟩
      rw [hnone, hweights]
      norm_num
  · obtain ⟨table, rows, htable, ⟨-, rfl, hrows⟩ | ⟨hzero, -⟩⟩ :=
      exists_gridded_halves ha hb (.inl hcells)
    · exact ⟨rows, htable, hrows⟩
    · rw [ha'] at hzero
      norm_num at hzero

end Gridder

end Gridding
