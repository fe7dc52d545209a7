import Gridding.Proofs.Allocation.Measured
import Gridding.Proofs.Grid.Accepted
import Gridding.Proofs.Region.Mosaic

/-!
# Conservation

The weights of an allocation add up to the share of the clipped granules that lies inside the grid.
For areas this holds on every grid whose cells have disjoint interiors, whatever lengths and numbers
of points are like.

A line or a point is counted in every cell it touches, and its overlaps are scaled down to no more
than the whole clip, not to what of the clip lies inside the grid. So the weights add up to the
share inside exactly if each clip that weighs something either lies inside the grid, but for a part
of no size, or has no part of any size on an edge or at a corner that cells share.
-/

namespace Gridding

variable {ρ α ε B : Type} [Region ρ α ε] [GeneralizedBooleanAlgebra B] [Field α] [LinearOrder α]
  [IsStrictOrderedRing α] {place interior : ρ → B} {μ : Int → B → α}

namespace Engine

section Clip

variable {dim : Int} {g : Granule ρ α} (hg : Region.Gauged place (μ dim) dim g.footprint)
  (shape : Shape ρ)

include hg

omit [IsStrictOrderedRing α] in
theorem isContent_clip : IsContent fun x => μ dim (clipPlace place shape g ⊓ x) := by
  simpa only [clipPlace, inf_assoc] using hg.isContent.restrict (place shape.footprint)

variable (hp : Region.Placed place) {grid : Grid ρ α} (hgrid : grid.Accepted)

include hp hgrid

/-- The parts of a clip in the cells are together no less than its part in the grid. -/
theorem inside_le_sum : μ dim (clipPlace place shape g ⊓ place grid.extent) ≤
    (grid.cells.map fun c => μ dim (clipPlace place shape g ⊓ place c.footprint)).sum := by
  have hle := (isContent_clip hg shape).cover_le_sum (grid.cells.map fun c => place c.footprint)
  rwa [← hgrid.place_extent hp.union_place, List.map_map] at hle

theorem sum_eq_inside_iff :
    (grid.cells.map fun c => μ dim (clipPlace place shape g ⊓ place c.footprint)).sum =
        μ dim (clipPlace place shape g ⊓ place grid.extent) ↔
      grid.cells.Pairwise fun c d =>
        μ dim (clipPlace place shape g ⊓ (place c.footprint ⊓ place d.footprint)) = 0 := by
  have hiff := (isContent_clip hg shape).sum_eq_cover_iff
    (grid.cells.map fun c => place c.footprint)
  rwa [← hgrid.place_extent hp.union_place, List.map_map, List.pairwise_map] at hiff

end Clip

theorem weightWithin_le {data : Dataset ρ α} (hdata : data.IsGauged place μ)
    (hweight : ∀ g ∈ data.granules, 0 ≤ g.weight) {x y : B} (hxy : x ≤ y) :
    weightWithin place μ data x ≤ weightWithin place μ data y := by
  refine List.sum_le_sum fun g hg => ?_
  exact mul_le_mul_of_nonneg_left ((hdata g hg).isContent.mono hxy) (hweight g hg)

/-- On a grid whose cells have disjoint interiors an area is counted as its part in the grid. -/
theorem countedOf_area (hp : Region.Placed place) (ha : Region.Areas place interior (μ 2))
    (shape : Shape ρ) {grid : Grid ρ α} (hgrid : grid.Accepted)
    (hcells : grid.cells.Pairwise fun c d => Disjoint (interior c.footprint) (interior d.footprint))
    (g : Granule ρ α) :
    countedOf place μ shape grid 2 g = μ 2 (clipPlace place shape g ⊓ place grid.extent) := by
  obtain ⟨p, -, hplace⟩ := hp.meet_place g.footprint shape.footprint
  have hnull : grid.cells.Pairwise fun c d =>
      μ 2 (clipPlace place shape g ⊓ (place c.footprint ⊓ place d.footprint)) = 0 := by
    refine hcells.imp fun hcd => ?_
    rw [clipPlace, ← hplace]
    exact ha.null_inf hcd p
  rw [countedOf, counted, if_pos (le_refl 2)]
  exact (sum_eq_inside_iff (ha.gauged g.footprint) shape hp hgrid).mpr hnull

variable [Tally α] [ExactTally α] [BEq α] [LawfulBEq α]

omit [BEq α] [LawfulBEq α] in
theorem weight_le_total {a : Allocation ρ α} (hpos : ∀ c ∈ a.cells, 0 < c.weight) {sum : α}
    (hsum : a.total = .ok sum) {c : Cell ρ α} (hc : c ∈ a.cells) : c.weight ≤ sum := by
  rw [Allocation.total, ExactTally.sum_eq, Except.ok.injEq] at hsum
  rw [← hsum]
  refine List.single_le_sum (fun w hw => ?_) c.weight (List.mem_map_of_mem hc)
  obtain ⟨d, hd, rfl⟩ := List.mem_map.mp hw
  exact (hpos d hd).le

/-- Areas are conserved on grids whose cells have disjoint interiors. -/
theorem area_conserved (hp : Region.Placed place) (ha : Region.Areas place interior (μ 2))
    (workers : Int) (shape : Shape ρ) {grid : Grid ρ α} (hgrid : grid.Accepted)
    (hcells : grid.cells.Pairwise fun c d => Disjoint (interior c.footprint) (interior d.footprint))
    {data : Dataset ρ α} (hdata : data.dimension = 2)
    (hweight : ∀ g ∈ data.granules, 0 ≤ g.weight) :
    ∃ a, allocate workers shape grid data = .ok a ∧
      a.totalWeight = weightWithin place μ data (place shape.footprint) ∧
      (a.totalWeight ≠ 0 → ∃ sum, a.total = .ok sum ∧
        sum = weightWithin place μ data (place shape.footprint ⊓ place grid.extent) /
          weightWithin place μ data (place shape.footprint) ∧
        (∀ c ∈ a.cells, 0 < c.weight ∧ c.weight ≤ 1) ∧ sum ≤ 1 ∧
        ((∀ g ∈ data.granules, clipPlace place shape g ≤ place grid.extent) → sum = 1)) := by
  have hgauged : data.IsGauged place μ := ha.isGauged hdata
  obtain ⟨a, hallocate, htotal, hpos, hsum⟩ :=
    exists_allocation hp workers shape grid hgauged hweight
  refine ⟨a, hallocate, htotal, fun hne => ?_⟩
  have hinside : (data.granules.map fun g => g.weight * countedOf place μ shape grid
      data.dimension g).sum =
      weightWithin place μ data (place shape.footprint ⊓ place grid.extent) := by
    rw [weightWithin_inf, hdata]
    simp only [countedOf_area hp ha shape hgrid hcells]
  have hsum := hsum hne
  rw [hinside, htotal] at hsum
  rw [htotal] at hne
  have hpositive := lt_of_le_of_ne (weightWithin_nonneg hgauged hweight (place shape.footprint))
    hne.symm
  have hone := (div_le_one hpositive).mpr (weightWithin_le hgauged hweight
    (inf_le_left : place shape.footprint ⊓ place grid.extent ≤ _))
  refine ⟨_, hsum, rfl, fun c hc => ⟨hpos c hc, (weight_le_total hpos hsum hc).trans hone⟩, hone,
    fun hin => ?_⟩
  have hall : weightWithin place μ data (place shape.footprint ⊓ place grid.extent) =
      weightWithin place μ data (place shape.footprint) := by
    rw [weightWithin_inf]
    refine congrArg List.sum (List.map_congr_left fun g hg => ?_)
    rw [inf_eq_left.mpr (hin g hg)]
    rfl
  rw [hall, div_self hne]

open Mosaic in
theorem area_conserved_squares :
    ∃ a, allocate 2 (shape (rectangle 0 0 3 1)) (grid 2 1) areas = .ok a ∧
      a.total = .ok (3 / 4) := by
  obtain ⟨a, ha, htotal, h⟩ := area_conserved spatial.toPlaced (planar.areas measured) 2
    (shape (rectangle 0 0 3 1)) (⟨.known .lonLat, rfl⟩ : (grid 2 1).Accepted) (by decide)
    (rfl : areas.dimension = 2) (by decide)
  have hall : weightWithin pieces content areas (rectangle 0 0 3 1).pieces = 4 := by
    decide +kernel
  have hinside : weightWithin pieces content areas
      ((rectangle 0 0 3 1).pieces ⊓ (grid 2 1).extent.pieces) = 3 := by
    decide +kernel
  obtain ⟨sum, hsum, heq, -⟩ := h (htotal.trans_ne (hall.trans_ne (by norm_num)))
  refine ⟨a, ha, hsum.trans (congrArg Except.ok (heq.trans ?_))⟩
  exact congrArg₂ (· / ·) hinside hall

omit [Tally α] [ExactTally α] [BEq α] [LawfulBEq α] in
/-- What is counted of a line or a point is no less than its part in the grid, and no more if and
only if the clip has no size outside the grid or on what cells share. -/
theorem countedOf_eq_inside_iff (hp : Region.Placed place) (shape : Shape ρ) {grid : Grid ρ α}
    (hgrid : grid.Accepted) {dim : Int} (hlow : dim < 2) {g : Granule ρ α}
    (hg : Region.Gauged place (μ dim) dim g.footprint) :
    μ dim (clipPlace place shape g ⊓ place grid.extent) ≤ countedOf place μ shape grid dim g ∧
      (μ dim (clipPlace place shape g ⊓ place grid.extent) = countedOf place μ shape grid dim g ↔
        μ dim (clipPlace place shape g \ place grid.extent) = 0 ∨ grid.cells.Pairwise fun c d =>
          μ dim (clipPlace place shape g ⊓ (place c.footprint ⊓ place d.footprint)) = 0) := by
  have hcontent := isContent_clip hg shape
  have hsplit := hcontent.inf_add_sdiff (clipPlace place shape g) (place grid.extent)
  have houtside := hcontent.nonneg (clipPlace place shape g \ place grid.extent)
  have hin : clipPlace place shape g ⊓ (clipPlace place shape g \ place grid.extent) =
      clipPlace place shape g \ place grid.extent := inf_eq_right.mpr sdiff_le
  rw [hin] at houtside
  rw [inf_left_idem, hin, inf_idem] at hsplit
  have hle := inside_le_sum hg shape hp hgrid
  rw [← sum_eq_inside_iff hg shape hp hgrid, countedOf, counted, if_neg (by omega)]
  refine ⟨le_min hle (by linarith), ?_⟩
  constructor
  · intro heq
    rcases min_choice (grid.cells.map fun c =>
      μ dim (clipPlace place shape g ⊓ place c.footprint)).sum (μ dim (clipPlace place shape g)) with
      hmin | hmin
    · exact .inr (heq.trans hmin).symm
    · left
      linarith [heq.trans hmin]
  · rintro (hzero | hsum)
    · rw [min_eq_right] <;> linarith
    · rw [hsum, min_eq_left]
      linarith

/-- What the weights of lines and points add up to, and when it is their share inside the grid. -/
theorem line_conserved_iff (hm : Region.Measured place μ) (workers : Int) (shape : Shape ρ)
    {grid : Grid ρ α} (hgrid : grid.Accepted) {data : Dataset ρ α} (hdata : data.dimension < 2)
    (hdim : ∀ g ∈ data.granules, Region.dimension g.footprint ≤ data.dimension)
    (hweight : ∀ g ∈ data.granules, 0 ≤ g.weight) :
    ∃ a, allocate workers shape grid data = .ok a ∧
      a.totalWeight = weightWithin place μ data (place shape.footprint) ∧
      (a.totalWeight ≠ 0 → ∃ sum, a.total = .ok sum ∧
        sum = (data.granules.map fun g => g.weight * min
          (grid.cells.map fun c =>
            μ data.dimension (clipPlace place shape g ⊓ place c.footprint)).sum
          (μ data.dimension (clipPlace place shape g))).sum /
            weightWithin place μ data (place shape.footprint) ∧
        (sum = weightWithin place μ data (place shape.footprint ⊓ place grid.extent) /
            weightWithin place μ data (place shape.footprint) ↔
          ∀ g ∈ data.granules, 0 < g.weight →
            μ data.dimension (clipPlace place shape g \ place grid.extent) = 0 ∨
            grid.cells.Pairwise fun c d => μ data.dimension
              (clipPlace place shape g ⊓ (place c.footprint ⊓ place d.footprint)) = 0)) := by
  have hp := hm.toPlaced
  have hgauged : data.IsGauged place μ := hm.isGauged hdim
  obtain ⟨a, ha, htotal, -, hsum⟩ := exists_allocation hp workers shape grid hgauged hweight
  refine ⟨a, ha, htotal, fun hne => ⟨_, hsum hne, ?_, ?_⟩⟩
  · rw [htotal]
    simp only [countedOf, counted, if_neg (by omega : ¬ 2 ≤ data.dimension)]
  · rw [htotal] at hne ⊢
    rw [div_left_inj' hne, eq_comm]
    rw [weightWithin_inf, sum_map_eq_iff_of_le fun g hg => mul_le_mul_of_nonneg_left
      (countedOf_eq_inside_iff hp shape hgrid hdata (hgauged g hg)).1 (hweight g hg)]
    refine forall₂_congr fun g hg => ?_
    rw [← (countedOf_eq_inside_iff hp shape hgrid hdata (hgauged g hg)).2]
    constructor
    · intro heq hpos
      exact mul_left_cancel₀ hpos.ne' heq
    · intro heq
      rcases (hweight g hg).eq_or_lt with hzero | hpos
      · rw [← hzero, zero_mul, zero_mul]
      · rw [heq hpos]

open Mosaic in
/-- An upright line in the first column that leaves the grid keeps the third of it that is inside. -/
theorem line_conserved_iff_squares :
    ∃ a, allocate 2 (shape (rectangle 0 0 2 3)) (grid 2 1) (line 0 3) = .ok a ∧
      a.total = .ok (1 / 3) := by
  obtain ⟨a, ha, htotal, h⟩ := line_conserved_iff measured 2 (shape (rectangle 0 0 2 3))
    (⟨.known .lonLat, rfl⟩ : (grid 2 1).Accepted) (by decide : (line 0 3).dimension < 2)
    (by decide) (by decide)
  have hall : weightWithin pieces content (line 0 3) (rectangle 0 0 2 3).pieces = 3 := by
    decide +kernel
  have hinside : weightWithin pieces content (line 0 3)
      ((rectangle 0 0 2 3).pieces ⊓ (grid 2 1).extent.pieces) = 1 := by
    decide +kernel
  obtain ⟨sum, hsum, -, hiff⟩ := h (htotal.trans_ne (hall.trans_ne (by norm_num)))
  refine ⟨a, ha, hsum.trans (congrArg Except.ok ((hiff.mpr ?_).trans ?_))⟩
  · decide +kernel
  · exact congrArg₂ (· / ·) hinside hall

open Mosaic in
/-- A line half of which runs on the edge between two cells and half of which is outside the grid is
allocated as a whole. -/
theorem line_on_edge_not_conserved :
    (grid 2 1).Accepted ∧
      ((grid 2 1).cells.Pairwise fun c d =>
        Disjoint (Mosaic.interior c.footprint) (Mosaic.interior d.footprint)) ∧
      ∃ a, allocate 2 (shape (rectangle 0 0 2 2)) (grid 2 1) (line 1 2) = .ok a ∧
        a.totalWeight = weightWithin pieces content (line 1 2) (rectangle 0 0 2 2).pieces ∧
        a.totalWeight = 2 ∧ a.total = .ok 1 ∧
        weightWithin pieces content (line 1 2)
          ((rectangle 0 0 2 2).pieces ⊓ (grid 2 1).extent.pieces) / a.totalWeight = 1 / 2 := by
  have hgauged : (line 1 2).IsGauged pieces content := measured.isGauged (by decide)
  obtain ⟨a, ha, htotal, -, hsum⟩ := exists_allocation measured.toPlaced 2
    (shape (rectangle 0 0 2 2)) (grid 2 1) hgauged (by decide)
  have hall : weightWithin pieces content (line 1 2) (rectangle 0 0 2 2).pieces = 2 := by
    decide +kernel
  have hcounted : ((line 1 2).granules.map fun g => g.weight *
      countedOf pieces content (shape (rectangle 0 0 2 2)) (grid 2 1) 1 g).sum = 2 := by
    decide +kernel
  have hinside : weightWithin pieces content (line 1 2)
      ((rectangle 0 0 2 2).pieces ⊓ (grid 2 1).extent.pieces) = 1 := by
    decide +kernel
  have htwo : a.totalWeight = 2 := htotal.trans hall
  refine ⟨⟨.known .lonLat, rfl⟩, by decide, a, ha, htotal, htwo, ?_, ?_⟩
  · refine (hsum (htwo.trans_ne (by norm_num))).trans (congrArg Except.ok ?_)
    rw [htwo]
    exact (congrArg (· / (2 : ℚ)) hcounted).trans (by norm_num)
  · rw [hinside, htwo]

end Engine

end Gridding
