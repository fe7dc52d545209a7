import Gridding.Proofs.Allocation.Entries
import Gridding.Proofs.Allocation.Index
import Gridding.Proofs.Allocation.Measured
import Gridding.Proofs.Allocation.Outcome

/-!
# Places of cells

A grid is accepted if its cells are as many as its table has places and no two have the same place.
If they all lie in the table, then they are all of it, and every allocation has a table in which
each cell that is listed has its own entry. Nothing makes sure that they do: a cell outside the
table makes the table of an allocation fail, or gets into the entry of another cell.
-/

namespace Gridding

open Engine

variable {ρ α ε : Type}

namespace Grid

/-- So many places in the table, no two of them the same, are the whole table. -/
theorem mem_iff_of_within {nx ny : Int} {ps : List (Int × Int)} (hnodup : ps.Nodup)
    (hcount : (ps.length : Int) = nx * ny)
    (h : ∀ p ∈ ps, (0 ≤ p.1 ∧ p.1 < ny) ∧ 0 ≤ p.2 ∧ p.2 < nx) (p : Int × Int) :
    p ∈ ps ↔ (0 ≤ p.1 ∧ p.1 < ny) ∧ 0 ≤ p.2 ∧ p.2 < nx := by
  refine ⟨h p, fun hp => ?_⟩
  have hny : 0 ≤ ny := hp.1.1.trans hp.1.2.le
  have hnx : 0 ≤ nx := hp.2.1.trans hp.2.2.le
  have hsub : ps.toFinset ⊆ Finset.Ico 0 ny ×ˢ Finset.Ico 0 nx := by
    intro q hq
    simpa using h q (List.mem_toFinset.mp hq)
  have hcard : (Finset.Ico 0 ny ×ˢ Finset.Ico 0 nx).card = ps.toFinset.card := by
    rw [List.toFinset_card_of_nodup hnodup, Finset.card_product, Int.card_Ico, Int.card_Ico]
    zify
    rw [hcount, Int.toNat_of_nonneg (by omega), Int.toNat_of_nonneg (by omega)]
    ring
  have hall := Finset.eq_of_subset_of_card_le hsub hcard.le
  rw [← List.mem_toFinset, hall]
  simpa using hp

theorem Accepted.places_eq_iff [Region ρ α ε] {g : Grid ρ α} (hg : g.Accepted) :
    (∀ row col, (row, col) ∈ g.cells.map (·.place) ↔
        (0 ≤ row ∧ row < g.ny) ∧ 0 ≤ col ∧ col < g.nx) ↔
      ∀ c ∈ g.cells, c.Within g.nx g.ny := by
  constructor
  · intro h c hc
    obtain ⟨hrow, hcol⟩ := (h c.row c.col).mp (List.mem_map_of_mem hc)
    exact ⟨hrow.1, hrow.2, hcol⟩
  · intro h row col
    refine mem_iff_of_within hg.nodup_places ?_ (fun p hp => ?_) (row, col)
    · rw [List.length_map]
      exact (accepted_iff.mp hg).1
    · obtain ⟨c, hc, rfl⟩ := List.mem_map.mp hp
      obtain ⟨hrow, hrow', hcol⟩ := h c hc
      exact ⟨⟨hrow, hrow'⟩, hcol⟩

end Grid

/-! ## Places of the cells of an allocation -/

namespace Engine

section Allocations

variable [Region ρ α ε] [Zero α] [One α] [Mul α] [Div α] [LT α] [LE α] [DecidableLT α]
  [DecidableLE α] [BEq α] [Tally α]

omit [LE α] [DecidableLE α] [BEq α] in
/-- The second stage lists no place twice. -/
theorem nodup_places_weighted {dim : Int} {clips : List (Clip ρ α)} {total : α}
    {cells kept : List (Cell ρ α)} {found : List (Nat × List (Nat × α))}
    (hfound : overlapsOf (ε := ε) dim clips cells = .ok found)
    (hkept : weighted (ε := ε) cells clips dim total found = .ok kept)
    (h : (cells.map (·.place)).Nodup) : (kept.map (·.place)).Nodup := by
  obtain ⟨os, hos, rfl⟩ := map_eq_ok.mp hfound
  rw [weighted_placed (length_result hos)] at hkept
  obtain ⟨lit, hlit, rfl⟩ := map_eq_ok.mp hkept
  obtain ⟨shares, -, hlit⟩ := bind_eq_ok.mp hlit
  obtain ⟨weights, hweights, rfl⟩ := map_eq_ok.mp hlit
  have hcells : weights.map (·.1) = (Striped.present cells os).map (·.1) :=
    map_result hweights fun r w hw => by
      obtain ⟨v, -, rfl⟩ := map_eq_ok.mp hw
      rfl
  have hplaces : (weights.map fun w => w.1.place).Nodup := by
    refine h.sublist ?_
    have hsub := (Striped.present_sublist cells os).map (·.place)
    rwa [← hcells, List.map_map] at hsub
  exact ((List.mergeSort_perm _ _).map _).nodup_iff.mpr (nodup_places_positive hplaces)

variable {shape : Shape ρ} {grid : Grid ρ α} {data : Dataset ρ α}

/-- The cells of an allocation are cells of the grid with other weights, each of them once. -/
theorem places_of_allocate {workers : Int} {a : Allocation ρ α} (hgrid : grid.Accepted)
    (h : allocate workers shape grid data = .ok a) :
    (∀ c ∈ a.cells, ∃ k ∈ grid.cells, c = k.withWeight c.weight) ∧
      (a.cells.map (·.place)).Nodup := by
  have hsequential := ((allocate_agree workers shape grid data).ok_iff a).mp h
  obtain ⟨covered, -, h⟩ := bind_eq_ok.mp hsequential
  obtain ⟨clips, -, h⟩ := bind_eq_ok.mp h
  obtain ⟨total, -, h⟩ := bind_eq_ok.mp h
  split at h
  case isTrue =>
    cases h
    exact ⟨by simp [nothing], by simp [nothing]⟩
  case isFalse =>
    obtain ⟨found, hfound, h⟩ := bind_eq_ok.mp h
    obtain ⟨kept, hkept, h⟩ := bind_eq_ok.mp h
    cases h
    refine ⟨fun c hc => ?_, nodup_places_weighted hfound hkept ?_⟩
    · obtain ⟨k, hk, w, -, rfl⟩ := of_mem_weighted hkept hc
      exact ⟨k, (List.mem_filter.mp hk).1, rfl⟩
    · exact hgrid.nodup_places.sublist (List.filter_sublist.map _)

variable [Add α]

/-- The cells of a grid are at all places of its table if none is outside. Then every allocation has
a table, unless its size is negative, and in that each cell has an entry for its own weight. -/
theorem table_of_places_within (hgrid : grid.Accepted) :
    ((∀ row col, (row, col) ∈ grid.cells.map (·.place) ↔
        (0 ≤ row ∧ row < grid.ny) ∧ 0 ≤ col ∧ col < grid.nx) ↔
      ∀ c ∈ grid.cells, c.Within grid.nx grid.ny) ∧
    ((∀ c ∈ grid.cells, c.Within grid.nx grid.ny) →
      ∀ (workers : Int) (shape : Shape ρ) (data : Dataset ρ α) (a : Allocation ρ α),
        allocate workers shape grid data = .ok a →
        a.dense = (if grid.nx < 0 ∨ grid.ny < 0 then .error .negativeSize
          else .ok (if a.tableTotal == 0 then ⟨none, false⟩
            else ⟨some (Allocation.tableOf grid.nx grid.ny a.entryAt), a.covered⟩)) ∧
        ∀ k ∈ grid.cells,
          (∃ w, k.withWeight w ∈ a.cells ∧ a.addedAt k.row k.col = 0 + w) ∨
          (k.place ∉ a.cells.map (·.place) ∧ a.addedAt k.row k.col = 0)) := by
  refine ⟨hgrid.places_eq_iff, fun hwithin workers shape data a ha => ?_⟩
  obtain ⟨hcells, hnodup⟩ := places_of_allocate hgrid ha
  have hsetting := setting_of_allocate ha
  have hnx : a.nx = grid.nx := congrArg (·.1) hsetting
  have hny : a.ny = grid.ny := congrArg (·.2.1) hsetting
  have hinside : ∀ c ∈ a.cells, c.Within a.nx a.ny := by
    intro c hc
    obtain ⟨k, hk, heq⟩ := hcells c hc
    rw [heq, hnx, hny]
    exact hwithin k hk
  refine ⟨?_, fun k hk => ?_⟩
  · rw [← hnx, ← hny]
    split
    · rename_i hnegative
      exact Allocation.dense_of_negative hnegative
    · rename_i hsize
      exact Allocation.dense_of_within hsize hinside
  · by_cases hplace : k.place ∈ a.cells.map (·.place)
    · obtain ⟨c, hc, heq⟩ := List.mem_map.mp hplace
      obtain ⟨k', hk', hck'⟩ := hcells c hc
      -- no two cells of the grid have the same place
      have hsame : k' = k := List.inj_on_of_nodup_map hgrid.nodup_places hk' hk (by
        rw [← heq, hck']
        rfl)
      rw [hsame] at hck'
      refine .inl ⟨c.weight, hck' ▸ hc, ?_⟩
      have hadded := Allocation.addedAt_of_mem hnodup hc
      rwa [hck'] at hadded
    · exact .inr ⟨hplace, Allocation.addedAt_of_not_mem hplace⟩

end Allocations

open Mosaic in
theorem table_of_places_within_squares :
    (grid 2 1).Accepted ∧ (∀ c ∈ (grid 2 1).cells, c.Within 2 1) ∧
      ∃ a, allocate 2 (shape (rectangle 0 0 3 1)) (grid 2 1) areas = .ok a ∧
        a.dense = .ok (if a.tableTotal == 0 then ⟨none, false⟩
          else ⟨some (Allocation.tableOf 2 1 a.entryAt), a.covered⟩) := by
  have hgauged : areas.IsGauged pieces content := measured.isGauged (by decide)
  obtain ⟨a, ha, -⟩ := exists_allocation measured.toPlaced 2 (shape (rectangle 0 0 3 1)) (grid 2 1)
    hgauged (by decide)
  have hgrid : (grid 2 1).Accepted := ⟨.known .lonLat, rfl⟩
  have hwithin : ∀ c ∈ (grid 2 1).cells, c.Within 2 1 := by decide
  have h := table_of_places_within hgrid
  exact ⟨hgrid, hwithin, a, ha, (h.2 hwithin 2 _ areas a ha).1⟩

/-- Two unit squares of a table with two rows, one of them in row one, the other in a given row. -/
def strayGrid (row : Int) : Grid Mosaic ℚ :=
  ⟨"stray", 1, 2, [⟨default, Mosaic.rectangle 0 0 1 1, row, 0, 0, none⟩,
    ⟨default, Mosaic.rectangle 1 0 2 1, 1, 0, 0, none⟩],
    ⟨[Mosaic.rectangle 0 0 1 1, Mosaic.rectangle 1 0 2 1].foldr (fun m s => m.pieces ∪ s) ∅⟩,
    none, false⟩

theorem listed_strayGrid {row : Int} {w : Cell Mosaic ℚ → ℚ}
    (h : (strayGrid row).cells.map w = [1, 0]) :
    (((strayGrid row).cells.map fun cell => (cell, w cell)).filterMap positive).mergeSort
        Cell.precedes = [⟨default, Mosaic.rectangle 0 0 1 1, row, 0, 1, none⟩] := by
  simp only [strayGrid, List.map_cons, List.map_nil, List.cons.injEq] at h
  obtain ⟨hfirst, hsecond, -⟩ := h
  simp only [strayGrid, List.map_cons, List.map_nil, hfirst, hsecond]
  rw [List.filterMap_cons_some (positive_eq_some_iff.mpr ⟨one_pos, rfl⟩),
    List.filterMap_cons_none (positive_eq_none (lt_irrefl 0)), List.filterMap_nil,
    List.mergeSort_singleton]
  rfl

open Mosaic in
/-- What is allocated to a cell above the table gets into the entry of the cell in row one, or there
is no table at all. -/
theorem table_of_stray_cell :
    (strayGrid (-1)).Accepted ∧ (strayGrid (-3)).Accepted ∧
      ∃ a b, allocate 1 (shape (rectangle 0 0 1 1)) (strayGrid (-1)) areas = .ok a ∧
        a.cells.map (fun c => (c.place, c.weight)) = [((-1, 0), 1)] ∧
        a.dense = .ok ⟨some [[0], [1]], a.covered⟩ ∧
        allocate 1 (shape (rectangle 0 0 1 1)) (strayGrid (-3)) areas = .ok b ∧
        b.dense = .error .outOfRange := by
  have := boxed.lossless
  have hlisted (row : Int) (hrow : row = -1 ∨ row = -3) : ∃ a,
      allocate 1 (shape (rectangle 0 0 1 1)) (strayGrid row) areas = .ok a ∧
        a.nx = 1 ∧ a.ny = 2 ∧ a.cells = [⟨default, rectangle 0 0 1 1, row, 0, 1, none⟩] := by
    have hpart (p q : Mosaic) : Region.meet p q = .ok (⟨p.pieces ∩ q.pieces⟩ : Mosaic) := rfl
    obtain ⟨a, ha, htotal, -, hcells⟩ := exists_allocate hpart 1 (shape (rectangle 0 0 1 1))
      (strayGrid row) areas rfl
    have htwo : a.totalWeight = 2 := htotal.trans (by decide +kernel)
    have hsetting := setting_of_allocate ha
    refine ⟨a, ha, congrArg (·.1) hsetting, congrArg (·.2.1) hsetting,
      (hcells (htwo.trans_ne (by norm_num))).trans (listed_strayGrid ?_)⟩
    rw [htwo]
    rcases hrow with rfl | rfl <;> decide +kernel
  obtain ⟨a, ha, hnx, hny, hcells⟩ := hlisted (-1) (.inl rfl)
  obtain ⟨b, hb, hnx', hny', hcells'⟩ := hlisted (-3) (.inr rfl)
  refine ⟨⟨.known .lonLat, rfl⟩, ⟨.known .lonLat, rfl⟩, a, b, ha, by rw [hcells]; rfl, ?_, hb, ?_⟩
  · have hplaced : [(⟨default, rectangle 0 0 1 1, -1, 0, 1, none⟩ : Cell Mosaic ℚ)].mapM
        (Allocation.placeCell? 1 2) = some [(1, 0, 1)] := rfl
    have htable : ((List.range (Int.toNat 2)).map fun r => (List.range (Int.toNat 1)).map fun c =>
        Allocation.entry [(1, 0, (1 : ℚ))] r c) = [[0], [1]] := by decide +kernel
    rw [Allocation.dense, hcells, hnx, hny, if_neg (by decide), hplaced]
    simp only [htable, ExactTally.tableSum_eq]
    cases a.covered <;> simp
  · rw [Allocation.dense, hcells', hnx', hny']
    rfl

end Engine

end Gridding
