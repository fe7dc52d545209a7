import Gridding.Proofs.Grid.Shares

/-!
# The two notions of coverage

`locate` takes a footprint as covered if its fractions sum up to almost one, `covers` if almost all of
it lies inside the extent, or all of it if it has no measure or consists of points. What `covers`
accepts `locate` accepts as well if it is an area, has no measure or consists of points none of which
is empty; so it does of a line if the cells together have no less of it than the extent. The two differ
where cells overlap, as then a part of an area counts in several cells, and where a few of very many
points are outside. Besides, an empty point counts in `locate` as one that is outside.
-/

namespace Gridding.Grid

theorem eq_iff_of_imp {c b : Bool} (h : b = true → c = true) : c = b ↔ ¬ c = true ∨ b = true := by
  cases c <;> cases b <;> simp_all

variable {ρ α ε B : Type} [Region ρ α ε] [Field α] [LinearOrder α]

theorem covers_unsized [Tally α] (g : Grid ρ α) {q : ρ} (hne : Region.isEmpty q = false)
    (h : Region.dimension q = 0 ∨ Region.measure (Region.dimension q) q ≤ 0) :
    g.covers (ε := ε) q = .ok (Region.covers g.extent q) := by
  have hdim : ¬ Region.dimension q < 0 := of_decide_eq_false hne
  rw [covers, if_neg hdim, if_pos h]

variable [GeneralizedBooleanAlgebra B] {place interior : ρ → B} {area : B → α} {g : Grid ρ α} {q : ρ}

section Extent

variable (hs : Region.Spatial place) (hg : g.Accepted)

include hs hg

/-- A point lies within the extent if it is in some cell. -/
theorem point_le_extent_iff {p : ρ} (hp : Region.isPoint p = true) (hne : Region.isEmpty p = false) :
    place p ≤ place g.extent ↔ 0 < g.meetCount p := by
  rw [hg.place_extent hs.union_place, atom_le_cover_iff (hs.isAtom p hp hne), meetCount_pos_iff]
  simp only [List.mem_map, exists_exists_and_eq_and, hs.meets_point_iff hp hne]

/-- What lies within the extent and is not empty meets some cell. -/
theorem exists_meets_of_covers (hcovers : Region.covers g.extent q = true) :
    ∃ c ∈ g.cells, Region.meets c.footprint q = true := by
  obtain ⟨hne, hle⟩ := (hs.covers_iff _ _).mp hcovers
  by_contra! hnone
  have hdisjoint : Disjoint (place q) (place g.extent) := by
    rw [hg.place_extent hs.union_place, disjoint_cover_iff, List.forall_mem_map]
    intro c hc
    exact (not_not.mp (mt (hs.meets_iff _ _).mpr (hnone c hc))).symm
  have hempty := (hs.isEmpty_iff q).mpr (disjoint_self.mp (hdisjoint.mono_right hle))
  rw [hempty] at hne
  cases hne

end Extent

section Points

variable (hdim : Region.dimension q = 0)
  (hparts : ∀ p ∈ Region.parts q, Region.isPoint p = true ∧ Region.isEmpty p = false)

omit [LinearOrder α] in
include hdim hparts in
theorem shareInside_points : g.shareInside q =
    ((Region.parts q).countP fun p => 0 < g.meetCount p : ℕ) / ((Region.parts q).length : α) := by
  rw [shareInside, if_pos hdim, pointsOf_eq fun p hp => (hparts p hp).1]

variable [IsStrictOrderedRing α] (hs : Region.Spatial place) (hne : Region.isEmpty q = false)

include hdim hparts hs hne

/-- The extent covers points if all of them are in some cell. -/
theorem covers_points_iff (hg : g.Accepted) :
    Region.covers g.extent q = true ↔ g.shareInside q = 1 := by
  have hlength := hs.length_parts_pos hne
  have hall : Region.covers g.extent q = true ↔
      ∀ p ∈ Region.parts q, 0 < g.meetCount p := by
    rw [hs.covers_iff, and_iff_right hne, hs.parts_place q, cover_le_iff, List.forall_mem_map]
    exact forall₂_congr fun p hp => point_le_extent_iff hs hg (hparts p hp).1 (hparts p hp).2
  rw [hall, shareInside_points hdim hparts, div_eq_one_iff_eq (by positivity), Nat.cast_inj,
    List.countP_eq_length]
  simp only [decide_eq_true_iff]

/-- If not all of at most ten thousand points are in the grid, their share does not count as
covered. -/
theorem shareInside_few (hfew : (Region.parts q).length ≤ 10000) :
    g.shareInside q = 1 ∨ g.shareInside q ≤ 9999 / 10000 := by
  have hlength := hs.length_parts_pos hne
  rw [shareInside_points hdim hparts]
  generalize hcount : ((Region.parts q).countP fun p => 0 < g.meetCount p) = count
  have hle : count ≤ (Region.parts q).length := hcount ▸ List.countP_le_length
  rcases hle.eq_or_lt with heq | hlt
  · left
    rw [heq, div_self (by positivity)]
  · right
    rw [div_le_div_iff₀ (by positivity) (by norm_num)]
    exact_mod_cast (by omega : count * 10000 ≤ 9999 * (Region.parts q).length)

end Points

theorem area_agree {p : Placement α} (hcovered : p.covered = true ↔ 9999 / 10000 < p.fractions.sum)
    (hle : g.shareInside q ≤ p.fractions.sum) :
    (9999 / 10000 < g.shareInside q → p.covered = true) ∧
      (p.covered = decide (9999 / 10000 < g.shareInside q) ↔
        p.fractions.sum ≤ 9999 / 10000 ∨ 9999 / 10000 < g.shareInside q) := by
  have himp : 9999 / 10000 < g.shareInside q → p.covered = true := by
    intro hshare
    exact hcovered.mpr (hshare.trans_le hle)
  refine ⟨himp, ?_⟩
  rw [eq_iff_of_imp (by simpa using himp), hcovered, not_lt, decide_eq_true_iff]

variable [IsStrictOrderedRing α]

theorem points_agree (hs : Region.Spatial place) (hg : g.Accepted)
    (hne : Region.isEmpty q = false) (hdim : Region.dimension q = 0)
    (hparts : ∀ r ∈ Region.parts q, Region.isPoint r = true ∧ Region.isEmpty r = false)
    {p : Placement α} (hp : p.MakesUp (g.shareInside q)) :
    (Region.covers g.extent q = true → p.covered = true) ∧
      (p.covered = Region.covers g.extent q ↔
        g.shareInside q ≤ 9999 / 10000 ∨ g.shareInside q = 1) ∧
      ((Region.parts q).length ≤ 10000 → p.covered = Region.covers g.extent q) := by
  have hcovers := covers_points_iff hdim hparts hs hne hg
  have himp : Region.covers g.extent q = true → p.covered = true := by
    rw [hcovers, hp.covered_iff]
    intro hone
    rw [hone]
    norm_num
  have hiff : p.covered = Region.covers g.extent q ↔
      g.shareInside q ≤ 9999 / 10000 ∨ g.shareInside q = 1 := by
    rw [eq_iff_of_imp himp, hcovers, hp.covered_iff, not_lt]
  exact ⟨himp, hiff, fun hfew => hiff.mpr (shareInside_few hdim hparts hs hne hfew).symm⟩

variable [Tally α] [ExactTally α]

theorem covers_sized (hs : Region.Spatial place) (g : Grid ρ α) (hdim : 0 < Region.dimension q)
    (hpos : 0 < Region.measure (Region.dimension q) q) :
    g.covers (ε := ε) q = .ok (decide (9999 / 10000 < g.shareInside q)) := by
  obtain ⟨p, hp, -⟩ := hs.meet_place g.extent q
  rw [covers, if_neg (by omega), if_neg (by simpa [hpos] using hdim.ne'), Fault.meet, hp,
    shareInside, if_neg hdim.ne', Region.shared_eq hp, ← coveredShare_eq]
  rfl

/-- A footprint without measure is placed as a whole if it meets a cell. -/
theorem covered_degenerate (g : Grid ρ α) (q : ρ) :
    (placementOf g.cells (met q) (1 / (g.meetCount q : α))).covered = true ↔ 0 < g.meetCount q := by
  have hmet : ∀ c ∈ g.cells, (0 : α) ≤ met q c := fun c _ => by
    unfold met
    split <;> simp
  rw [covered_placementOf]
  refine (iff_of_eq (congrArg (9999 / 10000 < ·) (sum_listed hmet _))).trans ?_
  rw [sum_met]
  rcases Nat.eq_zero_or_pos (g.meetCount q) with hzero | hpos
  · rw [hzero]
    norm_num
  · rw [mul_one_div_cancel (by positivity)]
    simp only [hpos, iff_true]
    norm_num

theorem degenerate_agree (hs : Region.Spatial place) (hg : g.Accepted) {p : Placement α}
    (hp : p = placementOf g.cells (met q) (1 / (g.meetCount q : α))) :
    (Region.covers g.extent q = true → p.covered = true) ∧
      ((∀ c ∈ g.cells, Region.meets c.footprint q = false) →
        p.covered = Region.covers g.extent q) := by
  have hcovered : p.covered = true ↔ ∃ c ∈ g.cells, Region.meets c.footprint q = true := by
    rw [hp, covered_degenerate, meetCount_pos_iff]
  have himp (hcovers : Region.covers g.extent q = true) : p.covered = true :=
    hcovered.mpr (exists_meets_of_covers hs hg hcovers)
  refine ⟨himp, fun hnone => (eq_iff_of_imp himp).mpr (.inl fun hmet => ?_)⟩
  obtain ⟨c, hc, hmeets⟩ := hcovered.mp hmet
  rw [hnone c hc] at hmeets
  cases hmeets

omit [ExactTally α] in
/-- The fractions of an area make up no less than its share inside. -/
theorem area_share_le (hs : Region.Spatial place) (ha : Region.Areas place interior area)
    (hg : g.Accepted) (harea : Region.dimension q = 2) (hpos : 0 < Region.measure 2 q) :
    g.shareInside q ≤ (placementOf g.cells (inCell q) (g.scale q)).fractions.sum := by
  have hle := shared_extent_le hg ((ha.additive hs.toPlaced q).subadditive hs)
  rw [inCell_eq harea]
  refine le_of_le_of_eq ?_ (sum_listed (fun c _ => hs.shared_nonneg _ _ q) _).symm
  rw [shareInside, if_neg (by omega), scale, if_neg (by omega), harea, mul_one_div]
  exact (div_le_div_iff_of_pos_right hpos).mpr hle

/-- The fractions of a line make up no more than its share inside, and no less if the cells together
have no less of it than the extent. -/
theorem line_agrees (hs : Region.Spatial place) (hg : g.Accepted) (hline : Region.dimension q = 1)
    (hpos : 0 < Region.measure 1 q) :
    ((placementOf g.cells (inCell q) (g.scale q)).covered = true →
        decide (9999 / 10000 < g.shareInside q) = true) ∧
      (Region.Subadditive 1 q → (placementOf g.cells (inCell q) (g.scale q)).covered =
        decide (9999 / 10000 < g.shareInside q)) := by
  have hshare : g.shareInside q = Region.shared 1 g.extent q / Region.measure 1 q := by
    rw [shareInside, if_neg (by omega), hline]
  have hcovered : (placementOf g.cells (inCell q) (g.scale q)).covered = true ↔ 9999 / 10000 <
      min (Region.shared 1 g.extent q) (g.cells.map fun c => Region.shared 1 c.footprint q).sum /
        Region.measure 1 q := by
    rw [covered_placementOf, sum_line hs g hline]
  refine ⟨fun h => decide_eq_true ?_, fun hq => ?_⟩
  · rw [hshare]
    exact (hcovered.mp h).trans_le ((div_le_div_iff_of_pos_right hpos).mpr (min_le_left _ _))
  · rw [Bool.eq_iff_iff, hcovered, decide_eq_true_iff, hshare,
      min_eq_left (shared_extent_le hg hq)]

theorem locate_agrees_covers (hs : Region.Spatial place) (ha : Region.Areas place interior area)
    (hg : g.Accepted) (hne : Region.isEmpty q = false) :
    ∃ p b, g.locate (ε := ε) q = .ok p ∧ g.covers (ε := ε) q = .ok b ∧
      (Region.dimension q = 0 →
        (p.covered = true ↔ 9999 / 10000 < g.shareInside q) ∧
        (b = true ↔ place q ≤ place g.extent)) ∧
      (Region.dimension q = 0 →
        (∀ r ∈ Region.parts q, Region.isPoint r = true ∧ Region.isEmpty r = false) →
        (b = true → p.covered = true) ∧
        (p.covered = b ↔ g.shareInside q ≤ 9999 / 10000 ∨ g.shareInside q = 1) ∧
        ((Region.parts q).length ≤ 10000 → p.covered = b)) ∧
      (Region.dimension q = 1 → 0 < Region.measure 1 q →
        (p.covered = true → b = true) ∧ (Region.Subadditive 1 q → p.covered = b)) ∧
      (Region.dimension q = 2 → 0 < Region.measure 2 q →
        (b = true → p.covered = true) ∧
        (p.covered = b ↔ p.fractions.sum ≤ 9999 / 10000 ∨ 9999 / 10000 < g.shareInside q) ∧
        ((g.cells.Pairwise fun c d => Disjoint (interior c.footprint) (interior d.footprint)) →
          p.covered = b)) ∧
      (0 < Region.dimension q → Region.measure (Region.dimension q) q ≤ 0 →
        (b = true → p.covered = true) ∧
        ((∀ c ∈ g.cells, Region.meets c.footprint q = false) → p.covered = b)) := by
  have hdim : ¬ Region.dimension q < 0 := of_decide_eq_false hne
  rcases (by omega : Region.dimension q = 0 ∨ 0 < Region.dimension q) with hpoints | hsized
  · have hmakes := points_makeUp g q hpoints
    refine ⟨_, _, locate_points hs hg hpoints, covers_unsized g hne (.inl hpoints),
      fun _ => ⟨hmakes.covered_iff, by rw [hs.covers_iff, and_iff_right hne]⟩,
      fun _ hparts => points_agree hs hg hne hpoints hparts hmakes, ?_, ?_, ?_⟩
    all_goals intro hother; omega
  rcases le_or_gt (Region.measure (Region.dimension q) q) 0 with hzero | hpos
  · refine ⟨_, _, locate_degenerate hs g hsized hzero, covers_unsized g hne (.inr hzero),
      fun hother => by omega, fun hother => by omega, ?_, ?_,
      fun _ _ => degenerate_agree hs hg rfl⟩
    · intro hline hpos
      rw [hline] at hzero
      exact absurd hpos hzero.not_gt
    · intro harea hpos
      rw [harea] at hzero
      exact absurd hpos hzero.not_gt
  · refine ⟨_, _, locate_sized hs g hsized hpos, covers_sized hs g hsized hpos,
      fun hother => by omega, fun hother => by omega, fun hline hpos => line_agrees hs hg hline hpos,
      fun harea hpos => ?_, fun _ hzero => absurd hpos hzero.not_gt⟩
    · obtain ⟨himp, hiff⟩ := area_agree (covered_placementOf (g.scale q))
        (area_share_le hs ha hg harea hpos)
      refine ⟨fun hshare => himp (of_decide_eq_true hshare), hiff, fun hcells => ?_⟩
      rw [Bool.eq_iff_iff, decide_eq_true_iff]
      exact (area_makesUp hs hg ha harea hpos hcells).covered_iff

open Mosaic in
theorem locate_agrees_covers_squares :
    ∃ p, (grid 2 1).locate (rectangle 0 0 3 1) = .ok p ∧
      (grid 2 1).covers (rectangle 0 0 3 1) = .ok p.covered := by
  have hpos : 0 < Region.measure 2 (rectangle 0 0 3 1) := by decide +kernel
  obtain ⟨p, b, hp, hb, -, -, -, harea, -⟩ := locate_agrees_covers spatial (planar.areas measured)
    (⟨.known .lonLat, rfl⟩ : (grid 2 1).Accepted) (q := rectangle 0 0 3 1) (by decide +kernel)
  obtain ⟨-, -, hcells⟩ := harea rfl hpos
  rw [← hcells (by decide +kernel)] at hb
  exact ⟨p, hp, hb⟩

open Mosaic in
/-- Two thirds of a rectangle are in each of two cells that cover the same place. -/
theorem locate_disagrees_covers_overlapping :
    let g := stack [rectangle 0 0 2 1, rectangle 0 0 2 1]
    let q := rectangle 0 0 3 1
    g.Accepted ∧ Region.isEmpty q = false ∧
      ∃ p, g.locate q = .ok p ∧ p.covered = true ∧ g.covers q = .ok false := by
  intro g q
  have hpos : 0 < Region.measure 2 q := by decide +kernel
  have hsum : (g.cells.map fun c => Region.shared 2 c.footprint q).sum * g.scale q = 4 / 3 := by
    decide +kernel
  have hshare : g.shareInside q = 2 / 3 := by decide +kernel
  refine ⟨⟨.known .lonLat, rfl⟩, by decide +kernel, _, locate_sized spatial g two_pos hpos, ?_, ?_⟩
  · have hfractions := (sum_listed (fun c _ => spatial.shared_nonneg 2 _ q) (g.scale q)).trans hsum
    rw [covered_placementOf]
    refine lt_of_lt_of_eq ?_ hfractions.symm
    norm_num
  · rw [covers_sized spatial g two_pos hpos, hshare]
    norm_num

end Gridding.Grid
