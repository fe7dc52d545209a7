import Gridding.Proofs.Cache.Recent
import Gridding.Proofs.Grid.Shares

/-!
# The fraction of one cell

`fractionAt` is what a placement reports of a place. The parts of a line in the cells are all scaled
down by one factor, so that together they make up its part in the extent. A cell is therefore given
all of its own part if and only if no piece of the line is in two cells, wherever that piece lies: a
piece on an edge takes something away from cells that it does not touch.
-/

namespace Gridding

variable {ρ α ε B : Type} [Field α] [LinearOrder α]

/-- The fraction that is reported for a place, nothing if the place is not listed. -/
def Placement.fractionAt (p : Placement α) (place : Int × Int) : α :=
  ((p.cells.zip p.fractions).lookup place).getD 0

namespace Grid

theorem fractionAt_placementOf [Tally α] {cells : List (Cell ρ α)} {v : Cell ρ α → α}
    (hplaces : (cells.map (·.place)).Nodup) {c : Cell ρ α} (hc : c ∈ cells) (hv : 0 ≤ v c) (k : α) :
    (placementOf cells v k).fractionAt c.place = v c * k := by
  have hsame : ∀ d ∈ listed cells v, d.place = c.place → d = c := fun d hd hplace =>
    List.inj_on_of_nodup_map hplaces (mem_listed.mp hd).1 hc hplace
  have hentries : (placementOf cells v k).cells.zip (placementOf cells v k).fractions =
      (listed cells v).map fun d => (d.place, v d * k) := List.zip_map'
  rw [Placement.fractionAt, hentries]
  by_cases hpos : 0 < v c
  · have hmem : (c.place, v c * k) ∈ (listed cells v).map fun d => (d.place, v d * k) :=
      List.mem_map_of_mem (f := fun d : Cell ρ α => (d.place, v d * k)) (mem_listed.mpr ⟨hc, hpos⟩)
    obtain ⟨x, hx⟩ := exists_lookup_of_mem hmem
    obtain ⟨d, hd, heq⟩ := List.mem_map.mp (mem_of_lookup hx)
    obtain ⟨hplace, rfl⟩ := Prod.mk.inj heq
    rw [hx, Option.getD_some, hsame d hd hplace]
  · have hnone : ((listed cells v).map fun d => (d.place, v d * k)).lookup c.place = none := by
      rw [lookup_eq_none_iff_forall_ne, List.forall_mem_map]
      intro d hd hplace
      rw [← hsame d hd hplace] at hpos
      exact hpos (mem_listed.mp hd).2
    rw [hnone, Option.getD_none, le_antisymm (not_lt.mp hpos) hv, zero_mul]

variable [Region ρ α ε] [IsStrictOrderedRing α]

/-- A part of a line keeps its full share if it is nothing or if the cells together have no more of
the line than the extent has. -/
theorem mul_scale_eq_div_iff {g : Grid ρ α} {q : ρ} (hline : Region.dimension q = 1)
    (hpos : 0 < Region.measure 1 q) {part : α}
    (hpart : 0 < part → 0 < (g.cells.map fun c => Region.shared 1 c.footprint q).sum)
    (hnonneg : 0 ≤ part) :
    part * g.scale q = part / Region.measure 1 q ↔ part = 0 ∨
      (g.cells.map fun c => Region.shared 1 c.footprint q).sum ≤ Region.shared 1 g.extent q := by
  rw [scale, if_pos hline, ← mul_div_assoc, div_left_inj' hpos.ne']
  rcases hnonneg.eq_or_lt with hzero | hsome
  · simp [← hzero]
  · rw [mul_eq_left₀ hsome.ne', min_eq_right_iff, one_le_div (hpart hsome)]
    simp [hsome.ne']

variable [Tally α] [ExactTally α] [GeneralizedBooleanAlgebra B] {place : ρ → B}

/-- The fraction of a line in a cell is its length there over its length, scaled down by one factor
for all cells. It is left whole if and only if there is nothing of the line in the cell, or no two
cells share any of it. -/
theorem fraction_eq_iff_null_inf (hs : Region.Spatial place) {g : Grid ρ α} (hg : g.Accepted)
    {q : ρ} (hline : Region.dimension q = 1) (hpos : 0 < Region.measure 1 q) :
    ∃ p, g.locate (ε := ε) q = .ok p ∧ ∀ c ∈ g.cells,
      p.fractionAt c.place = Region.shared 1 c.footprint q / Region.measure 1 q *
        min (Region.shared 1 g.extent q /
          (g.cells.map fun c => Region.shared 1 c.footprint q).sum) 1 ∧
      ∀ length : B → α, Region.Additive place length 1 q →
        (p.fractionAt c.place = Region.shared 1 c.footprint q / Region.measure 1 q ↔
          Region.shared 1 c.footprint q = 0 ∨ g.cells.Pairwise fun a b =>
            length (place q ⊓ (place a.footprint ⊓ place b.footprint)) = 0) := by
  have hsized : 0 < Region.measure (Region.dimension q) q := hline ▸ hpos
  refine ⟨_, locate_sized hs g (by omega) hsized, fun c hc => ?_⟩
  have hnonneg := hs.shared_nonneg 1 c.footprint q
  rw [inCell_eq hline, fractionAt_placementOf hg.nodup_places hc hnonneg]
  refine ⟨by rw [scale, if_pos hline, mul_div_assoc', div_mul_eq_mul_div], fun length hq => ?_⟩
  have hsum := hq.sum_shared_eq_iff hs hg.union_footprints
  rw [List.map_map, List.pairwise_map] at hsum
  rw [← hsum, mul_scale_eq_div_iff hline hpos (fun hsome => ?_) hnonneg]
  · exact or_congr_right (shared_extent_le hg (hq.subadditive hs)).ge_iff_eq'
  · exact (sum_pos_iff fun d _ => hs.shared_nonneg 1 _ q).mpr ⟨c, hc, hsome⟩

open Mosaic in
/-- Half of a line outside the grid takes nothing away from the half in a cell. -/
theorem fraction_eq_half_outside :
    ∃ p, (grid 3 1).locate (rectangle 0 0 0 2) = .ok p ∧ p.fractionAt (0, 0) = 1 / 2 := by
  obtain ⟨p, hp, hcells⟩ := fraction_eq_iff_null_inf spatial
    (⟨.known .lonLat, rfl⟩ : (grid 3 1).Accepted) (q := rectangle 0 0 0 2) rfl (by decide +kernel)
  obtain ⟨-, hiff⟩ := hcells ⟨default, rectangle 0 0 1 1, 0, 0, 0, none⟩ List.mem_cons_self
  refine ⟨p, hp, ((hiff _ (measured.additive (by decide))).mpr (.inr ?_)).trans ?_⟩
  · decide +kernel
  · decide +kernel

open Mosaic in
/-- Half of a line is in the first of three cells and in no other, and the other half runs along the
edge between the second and the third. Of the line each of the three cells gets a third. -/
theorem fraction_lost_to_edge :
    let g := grid 3 1
    let q : Mosaic := ⟨(rectangle 0 0 0 1).pieces ∪ (rectangle 2 0 2 1).pieces⟩
    let c : Cell Mosaic ℚ := ⟨default, rectangle 0 0 1 1, 0, 0, 0, none⟩
    g.Accepted ∧ Region.Additive Mosaic.pieces (content 1) 1 q ∧ c ∈ g.cells ∧
      (∀ d ∈ g.cells, d.place ≠ c.place →
        content 1 (q.pieces ⊓ (c.footprint.pieces ⊓ d.footprint.pieces)) = 0) ∧
      Region.shared 1 c.footprint q / Region.measure 1 q = 1 / 2 ∧
      ∃ p, g.locate q = .ok p ∧ p.fractionAt c.place = 1 / 3 := by
  intro g q c
  have hg : g.Accepted := ⟨.known .lonLat, rfl⟩
  have hline : Region.dimension q = 1 := by decide +kernel
  have hpos : 0 < Region.measure (Region.dimension q) q := by
    rw [hline]
    decide +kernel
  have hc : c ∈ g.cells := List.mem_cons_self
  have hthird : inCell q c * g.scale q = 1 / 3 := by
    rw [inCell_eq hline]
    decide +kernel
  have hnonneg : 0 ≤ inCell q c := spatial.shared_nonneg (Region.dimension q) c.footprint q
  refine ⟨hg, measured.additive hline.le, hc, by decide +kernel, by decide +kernel, _,
    locate_sized spatial g (by omega) hpos, ?_⟩
  rw [fractionAt_placementOf hg.nodup_places hc hnonneg, hthird]

end Grid

end Gridding
