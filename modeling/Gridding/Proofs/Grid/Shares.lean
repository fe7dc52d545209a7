import Gridding.Proofs.Grid.Placement

/-!
# The shares of a footprint

The fractions that `locate` reports make up the share of the footprint that lies inside the grid:
the points that are in some cell over all points, and the area inside the extent over the whole area
if no two cells have interior points in common.

The parts of a line are scaled down to its length inside the extent. They make up its share inside if
lengths are additive. They do not for a line that runs along itself: it is as long as all its laps,
but an intersection has every piece of it once.
-/

namespace Gridding

variable {ρ α ε B : Type} [Field α] [LinearOrder α]

/-- The fractions of a placement make up a share. -/
structure Placement.MakesUp (p : Placement α) (share : α) : Prop where
  sum_eq : p.fractions.sum = share
  le_one : share ≤ 1
  inGrid_iff : p.inGrid = true ↔ 0 < share
  covered_iff : p.covered = true ↔ 9999 / 10000 < share

namespace Grid

variable [Region ρ α ε]

/-- The points that are in some cell over all points, and otherwise the part of the footprint inside
the extent over all of it. -/
def shareInside (g : Grid ρ α) (q : ρ) : α :=
  if Region.dimension q = 0 then
    ((pointsOf q).countP fun p => 0 < g.meetCount p : ℕ) / ((pointsOf q).length : α)
  else Region.shared (Region.dimension q) g.extent q / Region.measure (Region.dimension q) q

/-- The parts of a line in the cells, scaled to make up no more than its part in the extent. -/
theorem sum_mul_scale [IsStrictOrderedRing α] (g : Grid ρ α) (q : ρ)
    (hline : Region.dimension q = 1) (hinside : 0 ≤ Region.shared 1 g.extent q)
    (hcells : 0 ≤ (g.cells.map fun c => Region.shared 1 c.footprint q).sum) :
    (g.cells.map fun c => Region.shared 1 c.footprint q).sum * g.scale q =
      min (Region.shared 1 g.extent q) (g.cells.map fun c => Region.shared 1 c.footprint q).sum /
        Region.measure 1 q := by
  rw [scale, if_pos hline, ← mul_div_assoc]
  rcases hcells.eq_or_lt with hzero | hpos
  · rw [← hzero, zero_mul, min_eq_right hinside]
  · rw [mul_min_of_nonneg _ _ hpos.le, mul_div_cancel₀ _ hpos.ne', mul_one]

section Makes

variable [IsStrictOrderedRing α] [Tally α] [ExactTally α]

omit [Region ρ α ε] in
theorem makesUp_placementOf {cells : List (Cell ρ α)} {v : Cell ρ α → α} {k share : α}
    (hv : ∀ c ∈ cells, 0 ≤ v c) (hsum : (cells.map v).sum * k = share) (hle : share ≤ 1)
    (hpos : 0 < (cells.map v).sum ↔ 0 < share) : (placementOf cells v k).MakesUp share where
  sum_eq := (sum_listed hv k).trans hsum
  le_one := hle
  inGrid_iff := (inGrid_placementOf hv k).trans hpos
  covered_iff := by
    rw [covered_placementOf k, ← hsum, ← sum_listed hv k]
    rfl

theorem points_makeUp (g : Grid ρ α) (q : ρ) (hdim : Region.dimension q = 0) :
    (placementOf g.cells (g.pointShare (pointsOf q)) 1).MakesUp (g.shareInside q) := by
  have hshare : (g.cells.map (g.pointShare (pointsOf q))).sum = g.shareInside q := by
    rw [sum_pointShare, shareInside, if_pos hdim]
  refine makesUp_placementOf (fun c hc => ?_) (by rw [hshare, mul_one]) ?_ (by rw [hshare])
  · unfold pointShare
    refine List.sum_nonneg fun x hx => ?_
    obtain ⟨p, -, rfl⟩ := List.mem_map.mp hx
    positivity
  · rw [shareInside, if_pos hdim]
    exact div_le_one_of_le₀ (by exact_mod_cast List.countP_le_length) (Nat.cast_nonneg _)

variable [GeneralizedBooleanAlgebra B] {place interior : ρ → B} {m : B → α} {g : Grid ρ α} {q : ρ}
  (hs : Region.Spatial place) (hg : g.Accepted)

include hs hg

omit [IsStrictOrderedRing α] [Tally α] [ExactTally α] in
theorem place_le_extent {c : Cell ρ α} (hc : c ∈ g.cells) : place c.footprint ≤ place g.extent := by
  rw [hg.place_extent hs.union_place]
  exact le_cover (List.mem_map_of_mem hc)

omit [IsStrictOrderedRing α] [Tally α] [ExactTally α] hs in
/-- The cells together have no less of a footprint than the extent, if it is subadditive. -/
theorem shared_extent_le {d : Int} (hq : Region.Subadditive d q) :
    Region.shared d g.extent q ≤ (g.cells.map fun c => Region.shared d c.footprint q).sum := by
  have hle := hq _ _ hg.union_footprints
  rwa [List.map_map] at hle

omit [Tally α] [ExactTally α] in
/-- Some cell has a part of an additive footprint if the extent has. -/
theorem sum_shared_pos_iff {d : Int} (hq : Region.Additive place m d q) :
    0 < (g.cells.map fun c => Region.shared d c.footprint q).sum ↔
      0 < Region.shared d g.extent q := by
  constructor
  · intro hpos
    obtain ⟨c, hc, hpos⟩ := (sum_pos_iff fun c _ => hs.shared_nonneg d _ q).mp hpos
    exact hpos.trans_le (hq.shared_mono hs (place_le_extent hs hg hc))
  · intro hpos
    exact hpos.trans_le (shared_extent_le hg (hq.subadditive hs))

/-- The values make up the share inside if they add up to the part in the extent. -/
theorem sized_makesUp {d : Int} (hdim : Region.dimension q = d) (hd : 0 < d)
    (hpos : 0 < Region.measure d q) (hq : Region.Additive place m d q)
    (hsum : (g.cells.map fun c => Region.shared d c.footprint q).sum * g.scale q =
      Region.shared d g.extent q / Region.measure d q) :
    (placementOf g.cells (inCell q) (g.scale q)).MakesUp (g.shareInside q) := by
  have hshare : g.shareInside q = Region.shared d g.extent q / Region.measure d q := by
    rw [shareInside, if_neg (by omega), hdim]
  rw [hshare, inCell_eq hdim]
  refine makesUp_placementOf (fun c _ => hs.shared_nonneg d _ q) hsum ?_ ?_
  · exact (div_le_one hpos).mpr (hq.shared_le hs g.extent)
  · rw [sum_shared_pos_iff hs hg hq, div_pos_iff_of_pos_right hpos]

omit hg [ExactTally α] in
theorem sum_line (g : Grid ρ α) (hline : Region.dimension q = 1) :
    (placementOf g.cells (inCell q) (g.scale q)).fractions.sum = min (Region.shared 1 g.extent q)
        (g.cells.map fun c => Region.shared 1 c.footprint q).sum / Region.measure 1 q := by
  rw [inCell_eq hline]
  refine (sum_listed (fun c _ => hs.shared_nonneg _ _ q) _).trans ?_
  refine sum_mul_scale g q hline (hs.shared_nonneg 1 _ q) (List.sum_nonneg fun x hx => ?_)
  obtain ⟨c, -, rfl⟩ := List.mem_map.mp hx
  exact hs.shared_nonneg 1 _ q

theorem line_makesUp (hline : Region.dimension q = 1) (hpos : 0 < Region.measure 1 q)
    (hq : Region.Additive place m 1 q) :
    (placementOf g.cells (inCell q) (g.scale q)).MakesUp (g.shareInside q) := by
  have hle := shared_extent_le hg (hq.subadditive hs)
  have hinside := hs.shared_nonneg 1 g.extent q
  refine sized_makesUp hs hg hline one_pos hpos hq ?_
  rw [sum_mul_scale g q hline hinside (hinside.trans hle), min_eq_left hle]

theorem area_makesUp (ha : Region.Areas place interior m) (harea : Region.dimension q = 2)
    (hpos : 0 < Region.measure 2 q)
    (hcells : g.cells.Pairwise fun c d => Disjoint (interior c.footprint) (interior d.footprint)) :
    (placementOf g.cells (inCell q) (g.scale q)).MakesUp (g.shareInside q) := by
  have hq := ha.additive hs.toPlaced q
  have hnull : (g.cells.map (·.footprint)).Pairwise fun a b =>
      m (place q ⊓ (place a ⊓ place b)) = 0 :=
    List.pairwise_map.mpr (hcells.imp fun hcd => ha.null_inf hcd q)
  have hsum := (hq.sum_shared_eq_iff hs hg.union_footprints).mpr hnull
  rw [List.map_map] at hsum
  refine sized_makesUp hs hg harea two_pos hpos hq ?_
  rw [scale, if_neg (by omega), harea, mul_one_div]
  exact congrArg (· / _) hsum

end Makes

variable [IsStrictOrderedRing α] [Tally α] [ExactTally α] [GeneralizedBooleanAlgebra B]
  {place interior : ρ → B} {area : B → α}

theorem locate_shares (hs : Region.Spatial place) (ha : Region.Areas place interior area)
    {g : Grid ρ α} (hg : g.Accepted) {q : ρ} (hpos : 0 < Region.measure (Region.dimension q) q) :
    ∃ p, g.locate (ε := ε) q = .ok p ∧ p.fractions.length = p.cells.length ∧
      p.cells.Pairwise (Prod.Lex (· < ·) (· < ·)) ∧
      (p.covered = true ↔ 9999 / 10000 < p.fractions.sum) ∧
      (Region.dimension q = 1 → p.fractions.sum = min (Region.shared 1 g.extent q)
        (g.cells.map fun c => Region.shared 1 c.footprint q).sum / Region.measure 1 q) ∧
      (Region.dimension q = 1 → Region.Subadditive 1 q → p.fractions.sum = g.shareInside q) ∧
      (Region.dimension q = 0 ∨
        (Region.dimension q = 1 ∧ ∃ length, Region.Additive place length 1 q) ∨
        Region.dimension q = 2 ∧
          (g.cells.Pairwise fun c d => Disjoint (interior c.footprint) (interior d.footprint)) →
        p.MakesUp (g.shareInside q)) := by
  have hdim : ¬ Region.dimension q < 0 := by
    intro hnone
    exact hpos.ne' (hs.measure_of_isEmpty _ q (decide_eq_true hnone))
  rcases (by omega : Region.dimension q = 0 ∨ 0 < Region.dimension q) with hpoints | hsized
  · refine ⟨_, locate_points hs hg hpoints, ?_, pairwise_listed hg.nodup_places _,
      covered_placementOf 1, fun hline => absurd hline (by omega),
      fun hline => absurd hline (by omega), fun _ => ?_⟩
    · simp only [placementOf, List.length_map]
    · exact points_makeUp g q hpoints
  · refine ⟨_, locate_sized hs g hsized hpos, ?_, pairwise_listed hg.nodup_places _,
      covered_placementOf _, sum_line hs g, fun hline hq => ?_, ?_⟩
    · simp only [placementOf, List.length_map]
    · rw [sum_line hs g hline, min_eq_left (shared_extent_le hg hq), shareInside,
        if_neg (by omega), hline]
    · rintro (hpoints | ⟨hline, length, hq⟩ | ⟨harea, hcells⟩)
      · omega
      · exact line_makesUp hs hg hline (hline ▸ hpos) hq
      · exact area_makesUp hs hg ha harea (harea ▸ hpos) hcells

open Mosaic in
/-- A line on the edge between two cells that leaves the grid half way. -/
theorem locate_shares_edge :
    ∃ p, (grid 2 1).locate (rectangle 1 0 1 2) = .ok p ∧ p.fractions.sum = 1 / 2 ∧
      p.inGrid = true ∧ p.covered = false := by
  have hpos : 0 < Region.measure 1 (rectangle 1 0 1 2) := by decide +kernel
  obtain ⟨p, hp, -, -, -, -, -, hshare⟩ := locate_shares spatial (planar.areas measured)
    (⟨.known .lonLat, rfl⟩ : (grid 2 1).Accepted) (q := rectangle 1 0 1 2) hpos
  have hhalf : (grid 2 1).shareInside (rectangle 1 0 1 2) = 1 / 2 := by decide +kernel
  have hmakes := hshare (.inr (.inl ⟨rfl, content 1, measured.additive (by decide)⟩))
  rw [hhalf] at hmakes
  refine ⟨p, hp, hmakes.sum_eq, hmakes.inGrid_iff.mpr (by norm_num), ?_⟩
  rw [← Bool.not_eq_true, hmakes.covered_iff]
  norm_num

open Mosaic in
/-- A line that lies inside the grid and runs back along itself. -/
theorem locate_retraced_line :
    let g := stack [(⟨rectangle 0 0 3 1, 1⟩ : Laps)]
    let q : Laps := ⟨rectangle 1 0 2 0, 2⟩
    g.Accepted ∧ Region.covers g.extent q = true ∧
      ∃ p, g.locate q = .ok p ∧ p.fractions.sum = 1 / 2 ∧ p.covered = false := by
  intro g q
  have hpos : 0 < Region.measure 1 q := by decide +kernel
  have hsum : min (Region.shared 1 g.extent q) (g.cells.map fun c =>
      Region.shared 1 c.footprint q).sum / Region.measure 1 q = 1 / 2 := by decide +kernel
  have hfractions := (sum_line Laps.spatial g (rfl : Region.dimension q = 1)).trans hsum
  refine ⟨⟨.known .lonLat, rfl⟩, by decide +kernel, _, locate_sized Laps.spatial g one_pos hpos,
    hfractions, ?_⟩
  rw [← Bool.not_eq_true, covered_placementOf, hfractions]
  norm_num

end Grid

end Gridding
