import Gridding.Proofs.Allocation.Measured
import Gridding.Proofs.Region.Mosaic

/-!
# What one clip adds to the cells

In exact arithmetic the weight of a cell is the sum of the portions of all clips. Whatever the
overlaps are, the portions of the clip of a line or a point come to its weight times the sum of its
overlaps, or times its own size if that is less, over the total. They are shared out in proportion
to the overlaps.
-/

namespace Gridding

variable {ρ α ε : Type} [Region ρ α ε]

namespace Engine

section Clips

variable [Mul α] {shape : Shape ρ} {dim : Int}

theorem of_clip_eq_some {g : Granule ρ α} {c : Clip ρ α}
    (h : clip (ε := ε) shape dim g = .ok (some c)) :
    c.granule.weight = g.weight ∧
      c.contribution = c.granule.weight * Region.measure dim c.granule.footprint := by
  obtain ⟨part, -, h⟩ := bind_eq_ok.mp h
  have h := Except.ok.inj h
  split at h
  · cases h
  · cases h
    exact ⟨rfl, rfl⟩

theorem exists_of_mem_clipsOf {data : Dataset ρ α} {clips : List (Clip ρ α)}
    (h : clipsOf (ε := ε) shape data = .ok clips) {c : Clip ρ α} (hc : c ∈ clips) :
    ∃ g ∈ data.granules, clip (ε := ε) shape data.dimension g = .ok (some c) := by
  obtain ⟨os, hos, rfl⟩ := map_eq_ok.mp h
  obtain ⟨g, hg, hclip⟩ := exists_of_mem_result hos (List.reduceOption_mem_iff.mp hc)
  rw [map_snd_near] at hg
  exact ⟨g, (List.mem_filter.mp hg).1, hclip⟩

end Clips

section Overlaps

variable [Zero α] [LT α] [DecidableLT α]

/-- The overlap of a cell with a clip, if bounds find one and it is positive. -/
def overlap? (dim : Int) (cell : Cell ρ α) (c : Clip ρ α) : Option α :=
  (overlapNear dim cell c).toOption.join

/-- The size of that overlap, zero if there is none. -/
def overlapSize (dim : Int) (cell : Cell ρ α) (c : Clip ρ α) : α := (overlap? dim cell c).getD 0

/-- If the overlaps of all cells are found, they are these. -/
theorem overlapsOf_eq_placed {dim : Int} {clips : List (Clip ρ α)} {cells : List (Cell ρ α)}
    {found : List (Nat × List (Nat × α))}
    (h : overlapsOf (ε := ε) dim clips cells = .ok found) :
    found = Striped.placed 0 ((cells.map fun cell => (cell, clips.map (overlap? dim cell))).map
      fun r => (litRow r).map (·.2)) := by
  rw [overlapsOf_eq] at h
  obtain ⟨rows, hrows, rfl⟩ := map_eq_ok.mp h
  have hrow (cell : Cell ρ α) (r : Cell ρ α × List (Option α))
      (hr : (clips.mapM (overlapNear (ε := ε) dim cell)).map (fun row => (cell, row)) = .ok r) :
      r = (cell, clips.map (overlap? dim cell)) := by
    obtain ⟨row, hrow, rfl⟩ := map_eq_ok.mp hr
    have hentries := map_result (g := id) (k := overlap? dim cell) hrow fun c v hv => by
      rw [overlap?, hv]
      rfl
    rw [List.map_id] at hentries
    rw [hentries]
  have hall := map_result (g := id) hrows hrow
  rw [List.map_id] at hall
  rw [hall]

end Overlaps

section Existence

variable {part : ρ → ρ → ρ} (hpart : ∀ p q : ρ, Region.meet p q = .ok (part p q))
include hpart

theorem exists_clipsOf [Mul α] (shape : Shape ρ) (data : Dataset ρ α) :
    ∃ clips, clipsOf (ε := ε) shape data = .ok clips := by
  obtain ⟨os, hos⟩ : ∃ os, ((data.near shape.footprint).map (·.2)).mapM
      (clip (ε := ε) shape data.dimension) = .ok os := exists_mapM_eq_ok fun g _ => by
    rw [clip, Fault.meet, hpart]
    exact ⟨_, rfl⟩
  exact ⟨os.reduceOption, by rw [clipsOf, hos]; rfl⟩

theorem exists_overlapsOf [Zero α] [LT α] [DecidableLT α] (dim : Int) (clips : List (Clip ρ α))
    (cells : List (Cell ρ α)) : ∃ found, overlapsOf (ε := ε) dim clips cells = .ok found := by
  have hrow (cell : Cell ρ α) : ∃ row, clips.mapM (overlapNear (ε := ε) dim cell) = .ok row :=
    exists_mapM_eq_ok fun c _ => by
      rw [overlapNear, overlap, Fault.meet, hpart]
      split <;> exact ⟨_, rfl⟩
  obtain ⟨rows, hrows⟩ : ∃ rows, (cells.mapM fun cell =>
      (clips.mapM (overlapNear (ε := ε) dim cell)).map fun row => (cell, row)) = .ok rows :=
    exists_mapM_eq_ok fun cell _ => by
      obtain ⟨row, hrow⟩ := hrow cell
      exact ⟨(cell, row), by rw [hrow]; rfl⟩
  exact ⟨_, by rw [overlapsOf_eq, hrows]; rfl⟩

end Existence

section Sizes

variable [Field α] [LinearOrder α]

theorem overlapSize_nonneg (dim : Int) (cell : Cell ρ α) (c : Clip ρ α) :
    0 ≤ overlapSize dim cell c := by
  have hpos (v : α) (hv : overlapNear dim cell c = .ok (some v)) : 0 < v := by
    unfold overlapNear at hv
    split at hv
    · obtain ⟨part, -, hv⟩ := bind_eq_ok.mp hv
      have hv := Except.ok.inj hv
      split at hv
      · rename_i hpos
        cases hv
        simp only [Bool.and_eq_true, decide_eq_true_eq] at hpos
        exact hpos.2
      · cases hv
    · cases hv
  unfold overlapSize overlap?
  cases h : overlapNear (ε := ε) dim cell c with
  | error e => exact le_refl 0
  | ok o =>
    cases o with
    | none => exact le_refl 0
    | some v => exact (hpos v h).le

/-- What a clip adds to the weight of a cell. -/
def portion (dim : Int) (total : α) (cells : List (Cell ρ α)) (c : Clip ρ α) (cell : Cell ρ α) :
    α :=
  c.granule.weight * overlapSize dim cell c *
    shareOf dim (Region.measure dim c.granule.footprint)
      (cells.map fun d => overlapSize dim d c).sum / total

theorem sum_portion_eq (dim : Int) (total : α) (cells : List (Cell ρ α)) (c : Clip ρ α) :
    (cells.map (portion dim total cells c)).sum =
      c.granule.weight * (cells.map fun d => overlapSize dim d c).sum *
        shareOf dim (Region.measure dim c.granule.footprint)
          (cells.map fun d => overlapSize dim d c).sum / total := by
  unfold portion
  simp only [div_eq_mul_inv]
  rw [List.sum_map_mul_right, List.sum_map_mul_right, List.sum_map_mul_left]

variable [IsStrictOrderedRing α]

theorem sum_portion {dim : Int} (hlow : dim < 2) (total : α) (cells : List (Cell ρ α))
    {c : Clip ρ α} (hsize : 0 ≤ Region.measure dim c.granule.footprint) :
    (cells.map (portion dim total cells c)).sum =
      c.granule.weight * min (cells.map fun cell => overlapSize dim cell c).sum
        (Region.measure dim c.granule.footprint) / total := by
  have hsum : 0 ≤ (cells.map fun cell => overlapSize dim cell c).sum := by
    refine List.sum_nonneg fun x hx => ?_
    obtain ⟨cell, -, rfl⟩ := List.mem_map.mp hx
    exact overlapSize_nonneg dim cell c
  have hcounted := shareOf_mul dim hsize hsum
  rw [counted, if_neg (by omega)] at hcounted
  rw [sum_portion_eq, mul_assoc, hcounted]

/-- The portions of a clip are in proportion to its overlaps. -/
theorem portion_eq (dim : Int) (total : α) {cells : List (Cell ρ α)} (c : Clip ρ α)
    {cell : Cell ρ α} (hcell : cell ∈ cells) :
    portion dim total cells c cell = (cells.map (portion dim total cells c)).sum *
      (overlapSize dim cell c / (cells.map fun d => overlapSize dim d c).sum) := by
  have hle : overlapSize dim cell c ≤ (cells.map fun d => overlapSize dim d c).sum :=
    List.single_le_sum (fun x hx => by
      obtain ⟨d, -, rfl⟩ := List.mem_map.mp hx
      exact overlapSize_nonneg dim d c) _ (List.mem_map_of_mem hcell)
  rw [sum_portion_eq, portion]
  rcases eq_or_ne (cells.map fun d => overlapSize dim d c).sum 0 with hzero | hne
  · have hnone := le_antisymm (hle.trans_eq hzero) (overlapSize_nonneg dim cell c)
    simp only [hnone, hzero, mul_zero, zero_mul, zero_div]
  · field_simp

/-- What a clip adds to all cells together and to each of them. -/
structure Portioned (dim : Int) (total : α) (cells : List (Cell ρ α)) (c : Clip ρ α) : Prop where
  sum_eq : (cells.map (portion dim total cells c)).sum =
    c.granule.weight * min (cells.map fun cell => overlapSize dim cell c).sum
      (Region.measure dim c.granule.footprint) / total
  inProportion : ∀ cell ∈ cells, portion dim total cells c cell =
    (cells.map (portion dim total cells c)).sum *
      (overlapSize dim cell c / (cells.map fun d => overlapSize dim d c).sum)
  le_contribution : (cells.map (portion dim total cells c)).sum ≤ c.contribution / total

theorem portioned {dim : Int} (hlow : dim < 2) {total : α} (htotal : 0 ≤ total)
    (cells : List (Cell ρ α)) {c : Clip ρ α} (hweight : 0 ≤ c.granule.weight)
    (hsize : 0 ≤ Region.measure dim c.granule.footprint)
    (hcontribution : c.contribution = c.granule.weight * Region.measure dim c.granule.footprint) :
    Portioned dim total cells c where
  sum_eq := sum_portion hlow total cells hsize
  inProportion _ hcell := portion_eq dim total c hcell
  le_contribution := by
    rw [sum_portion hlow total cells hsize, hcontribution]
    exact div_le_div_of_nonneg_right (mul_le_mul_of_nonneg_left (min_le_right _ _) hweight) htotal

omit [IsStrictOrderedRing α] in
theorem sum_portions_of_cell (dim : Int) (total : α) (cells : List (Cell ρ α))
    (clips : List (Clip ρ α)) (cell : Cell ρ α) :
    (clips.map fun c => portion dim total cells c cell).sum =
      exactWeight dim clips total cells (overlapSize dim) cell := by
  unfold portion exactWeight
  simp only [div_eq_mul_inv]
  rw [List.sum_map_mul_right]

variable [Tally α] [ExactTally α]

omit [IsStrictOrderedRing α] in
/-- The cells that the second stage keeps weigh the sums of their portions. -/
theorem weighted_eq_portions {dim : Int} {clips : List (Clip ρ α)} (total : α)
    {cells : List (Cell ρ α)} {found : List (Nat × List (Nat × α))}
    (h : overlapsOf (ε := ε) dim clips cells = .ok found) :
    weighted (ε := ε) cells clips dim total found =
      .ok (((cells.map fun cell => (cell, (clips.map fun c =>
        portion dim total cells c cell).sum)).filterMap positive).mergeSort Cell.precedes) := by
  let rows := cells.map fun cell => (cell, clips.map (overlap? (ε := ε) dim cell))
  have hlength : ∀ r ∈ rows, r.2.length = clips.length := by
    intro r hr
    obtain ⟨cell, -, rfl⟩ := List.mem_map.mp hr
    exact List.length_map _
  have hcells : rows.map (·.1) = cells := by
    rw [List.map_map]
    exact List.map_id cells
  have hplaced : weighted (ε := ε) cells clips dim total found =
      (weighLit dim clips total
        (Striped.present cells (rows.map fun r => (litRow r).map (·.2)))).map
          fun kept => kept.mergeSort Cell.precedes := by
    rw [overlapsOf_eq_placed h]
    exact weighted_placed (by simp) clips dim total
  have hlit := present_litRow rows
  rw [hcells] at hlit
  rw [hplaced, hlit, ← weigh_eq_weighLit (lt_irrefl (0 : α)) dim total hlength, weigh_eq]
  simp only [sum_portions_of_cell]
  rfl

end Sizes

section Allocations

variable [Field α] [LinearOrder α] [Tally α] [ExactTally α] [BEq α]

/-- If regions always have intersections, there is an allocation. -/
theorem exists_allocate_of_meet (hmeet : ∀ p q : ρ, ∃ r, Region.meet p q = .ok r) (workers : Int)
    (shape : Shape ρ) (grid : Grid ρ α) (data : Dataset ρ α) :
    ∃ a, allocate workers shape grid data = .ok a := by
  choose part hpart using hmeet
  obtain ⟨covered, hcovered⟩ := exists_covers hpart grid shape.footprint
  obtain ⟨clips, hclips⟩ := exists_clipsOf hpart shape data
  obtain ⟨found, hfound⟩ :=
    exists_overlapsOf hpart data.dimension clips (grid.near shape.footprint)
  have hsequential : ∃ a, sequential shape grid data = .ok a := by
    rw [sequential, hcovered, hclips]
    simp only [bind, Except.bind, add_eq_sum]
    split
    · exact ⟨_, rfl⟩
    · rw [hfound]
      simp only [weighted_eq_portions _ hfound]
      exact ⟨_, rfl⟩
  obtain ⟨a, ha⟩ := hsequential
  exact ⟨a, ((allocate_agree workers shape grid data).ok_iff a).mpr ha⟩

theorem portions_of_allocate {workers : Int} {shape : Shape ρ} {grid : Grid ρ α}
    {data : Dataset ρ α} {a : Allocation ρ α} (h : allocate workers shape grid data = .ok a)
    (hne : a.totalWeight ≠ 0) :
    ∃ clips, clipsOf shape data = .ok clips ∧
      a.totalWeight = (clips.map (·.contribution)).sum ∧
      a.cells = (((grid.near shape.footprint).map fun cell => (cell, (clips.map fun c =>
        portion data.dimension a.totalWeight (grid.near shape.footprint) c cell).sum)).filterMap
          positive).mergeSort Cell.precedes := by
  have hsequential := ((allocate_agree workers shape grid data).ok_iff a).mp h
  obtain ⟨covered, -, h⟩ := bind_eq_ok.mp hsequential
  obtain ⟨clips, hclips, h⟩ := bind_eq_ok.mp h
  obtain ⟨total, htotal, h⟩ := bind_eq_ok.mp h
  rw [add_eq_sum] at htotal
  have htotal := Except.ok.inj htotal
  split at h
  · cases h
    exact absurd rfl hne
  · obtain ⟨found, hfound, h⟩ := bind_eq_ok.mp h
    obtain ⟨kept, hkept, h⟩ := bind_eq_ok.mp h
    cases h
    rw [weighted_eq_portions total hfound] at hkept
    exact ⟨clips, hclips, htotal.symm, (Except.ok.inj hkept).symm⟩

variable [IsStrictOrderedRing α]

/-- The clip of a line or a point adds no more than its own size to all cells together, whatever
its overlaps are, and the weights of the cells are together no more than one. -/
theorem portions_within_clip {data : Dataset ρ α}
    (hmeasure : ∀ r : ρ, 0 ≤ Region.measure data.dimension r) (hlow : data.dimension < 2)
    (hweight : ∀ g ∈ data.granules, 0 ≤ g.weight) (workers : Int) (shape : Shape ρ)
    (grid : Grid ρ α) :
    ((∀ p q : ρ, ∃ r, Region.meet p q = .ok r) → ∃ a, allocate workers shape grid data = .ok a) ∧
      ∀ a, allocate workers shape grid data = .ok a → a.totalWeight ≠ 0 →
        ∃ clips, clipsOf shape data = .ok clips ∧
          a.totalWeight = (clips.map (·.contribution)).sum ∧
          a.cells = (((grid.near shape.footprint).map fun cell => (cell, (clips.map fun c =>
            portion data.dimension a.totalWeight (grid.near shape.footprint) c cell).sum)).filterMap
              positive).mergeSort Cell.precedes ∧
          (∀ c ∈ clips, Portioned data.dimension a.totalWeight (grid.near shape.footprint) c) ∧
          a.total = .ok (clips.map fun c => ((grid.near shape.footprint).map
            (portion data.dimension a.totalWeight (grid.near shape.footprint) c)).sum).sum ∧
          (clips.map fun c => ((grid.near shape.footprint).map
            (portion data.dimension a.totalWeight (grid.near shape.footprint) c)).sum).sum ≤ 1 := by
  refine ⟨fun hmeet => exists_allocate_of_meet hmeet workers shape grid data, fun a ha hne => ?_⟩
  obtain ⟨clips, hclips, htotal, hcells⟩ := portions_of_allocate ha hne
  have hclip : ∀ c ∈ clips, 0 ≤ c.granule.weight ∧
      c.contribution = c.granule.weight * Region.measure data.dimension c.granule.footprint := by
    intro c hc
    obtain ⟨g, hg, hclip⟩ := exists_of_mem_clipsOf hclips hc
    obtain ⟨hw, hcontribution⟩ := of_clip_eq_some hclip
    exact ⟨(hweight g hg).trans_eq hw.symm, hcontribution⟩
  have hnonneg : 0 ≤ a.totalWeight := by
    rw [htotal]
    refine List.sum_nonneg fun x hx => ?_
    obtain ⟨c, hc, rfl⟩ := List.mem_map.mp hx
    rw [(hclip c hc).2]
    exact mul_nonneg (hclip c hc).1 (hmeasure _)
  have hportioned : ∀ c ∈ clips,
      Portioned data.dimension a.totalWeight (grid.near shape.footprint) c := fun c hc =>
    portioned hlow hnonneg _ (hclip c hc).1 (hmeasure _) (hclip c hc).2
  refine ⟨clips, hclips, htotal, hcells, hportioned, ?_, ?_⟩
  · rw [Allocation.total, hcells, sum_listed, List.map_map]
    · exact congrArg Except.ok (sum_map_comm _ _ _)
    · intro w hw
      obtain ⟨cell, -, rfl⟩ := List.mem_map.mp hw
      rw [sum_portions_of_cell]
      exact exactWeight_nonneg (fun c hc => (hclip c hc).1) (fun c _ => hmeasure _)
        (overlapSize_nonneg data.dimension) hnonneg cell
  · calc (clips.map fun c => ((grid.near shape.footprint).map (portion data.dimension
          a.totalWeight (grid.near shape.footprint) c)).sum).sum
        ≤ (clips.map fun c => c.contribution / a.totalWeight).sum :=
          List.sum_le_sum fun c hc => (hportioned c hc).le_contribution
      _ = 1 := by
          simp only [div_eq_mul_inv]
          rw [List.sum_map_mul_right, ← htotal, mul_inv_cancel₀ hne]

open Mosaic in
/-- A line on the edge between two cells overlaps each of them with all its length, and comes to its
length in both together. -/
theorem portions_within_clip_edge :
    ∃ a c, allocate 2 (shape (rectangle 0 0 2 2)) (grid 2 1) (line 1 1) = .ok a ∧
      clipsOf (shape (rectangle 0 0 2 2)) (line 1 1) = .ok [c] ∧
      (((grid 2 1).near (rectangle 0 0 2 2)).map fun cell => overlapSize 1 cell c) = [1, 1] ∧
      a.total = .ok 1 := by
  have hgauged : (line 1 1).IsGauged pieces content := measured.isGauged (by decide)
  obtain ⟨a, ha, htotal, -⟩ := exists_allocation measured.toPlaced 2 (shape (rectangle 0 0 2 2))
    (grid 2 1) hgauged (by decide)
  have hone : a.totalWeight = 1 := htotal.trans (by decide +kernel)
  have hweight : ∀ g ∈ (line 1 1).granules, 0 ≤ g.weight := by decide
  obtain ⟨clips, hclips, -, -, hportioned, hsum, -⟩ := (portions_within_clip
    (spatial.measure_nonneg 1) (by decide) hweight 2 (shape (rectangle 0 0 2 2))
    (grid 2 1)).2 a ha (hone.trans_ne one_ne_zero)
  have hfields : (clipsOf (shape (rectangle 0 0 2 2)) (line 1 1)).toOption.map
      (List.map fun c => (c.granule.footprint, c.granule.weight, c.contribution)) =
        some [(rectangle 1 0 1 1, 1, 1)] := by decide +kernel
  rw [hclips] at hfields
  obtain ⟨⟨⟨footprint, weight⟩, contribution⟩, rfl, hc⟩ :=
    List.map_eq_singleton_iff.mp (Option.some.inj hfields)
  cases hc
  have hoverlaps : (((grid 2 1).near (rectangle 0 0 2 2)).map fun cell =>
      overlapSize 1 cell ⟨⟨rectangle 1 0 1 1, 1⟩, 1⟩) = [1, 1] := by decide +kernel
  have hsize : Region.measure 1 (rectangle 1 0 1 1) = 1 := by decide +kernel
  refine ⟨a, _, ha, hclips, hoverlaps, hsum.trans (congrArg Except.ok ?_)⟩
  rw [List.map_singleton, List.sum_singleton, (hportioned _ List.mem_cons_self).sum_eq, hone]
  change 1 * min (((grid 2 1).near (rectangle 0 0 2 2)).map fun cell =>
    overlapSize 1 cell ⟨⟨rectangle 1 0 1 1, 1⟩, 1⟩).sum
      (Region.measure 1 (rectangle 1 0 1 1)) / 1 = 1
  rw [hoverlaps, hsize]
  norm_num

end Allocations

end Engine

end Gridding
