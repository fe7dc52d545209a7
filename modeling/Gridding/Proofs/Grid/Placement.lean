import Gridding.Grid.Locate
import Gridding.Proofs.Allocation.Exact
import Gridding.Proofs.Allocation.Index
import Gridding.Proofs.Region.Spatial

/-!
# Placements in exact arithmetic

Whatever the dimension of a footprint, `locate` gives every cell a value, lists the cells whose value
is positive and reports the values times a factor. The value is what the cell shares of the footprint,
or for points the sum of its parts in the points it touches, or one for each cell that a footprint
without measure meets.
-/

namespace Gridding.Grid

variable {ρ α ε B : Type} [Field α] [LinearOrder α]

/-- The cells of positive value, rows first. -/
def listed (cells : List (Cell ρ α)) (v : Cell ρ α → α) : List (Cell ρ α) :=
  (cells.filter fun c => 0 < v c).mergeSort Cell.precedes

/-- The placement in the listed cells, their values times a factor being the fractions. -/
def placementOf [Tally α] (cells : List (Cell ρ α)) (v : Cell ρ α → α) (k : α) : Placement α :=
  let fractions := (listed cells v).map fun c => v c * k
  ⟨(listed cells v).map (·.place), fractions, !(listed cells v).isEmpty,
    decide (coveredShare < fractions.sum)⟩

section Listed

variable {cells : List (Cell ρ α)} {v : Cell ρ α → α}

omit [Field α] [LinearOrder α] in
theorem inOrder_map (cells : List (Cell ρ α)) (v : Cell ρ α → α) :
    inOrder (cells.map fun c => (c, v c)) =
      (cells.mergeSort Cell.precedes).map fun c => (c, v c) :=
  (List.map_mergeSort (f := fun c => (c, v c)) fun _ _ _ _ => rfl).symm

theorem mem_listed {c : Cell ρ α} : c ∈ listed cells v ↔ c ∈ cells ∧ 0 < v c := by
  rw [listed, List.mem_mergeSort, List.mem_filter, decide_eq_true_iff]

theorem length_listed : (listed cells v).length = cells.countP fun c => 0 < v c := by
  rw [listed, List.length_mergeSort, List.countP_eq_length_filter]

/-- The places of the listed cells are each there once, rows first. -/
theorem pairwise_listed (h : (cells.map (·.place)).Nodup) (v : Cell ρ α → α) :
    ((listed cells v).map (·.place)).Pairwise (Prod.Lex (· < ·) (· < ·)) := by
  have hplaces : ((cells.filter fun c => 0 < v c).map (·.place)).Nodup :=
    h.sublist (List.filter_sublist.map _)
  rw [List.pairwise_map]
  exact (Cell.pairwise_before_mergeSort hplaces).imp fun hab => Prod.lex_def.mpr hab

theorem sum_listed (hv : ∀ c ∈ cells, 0 ≤ v c) (k : α) :
    ((listed cells v).map fun c => v c * k).sum = (cells.map v).sum * k := by
  rw [List.sum_map_mul_right, listed, ((List.mergeSort_perm _ _).map _).sum_eq, sum_filter]
  congr 2
  refine List.map_congr_left fun c hc => ?_
  by_cases hpos : 0 < v c
  · rw [if_pos (by simpa using hpos)]
  · rw [if_neg (by simpa using hpos)]
    exact (le_antisymm (not_lt.mp hpos) (hv c hc)).symm

variable [IsStrictOrderedRing α] [Tally α]

theorem inGrid_placementOf (hv : ∀ c ∈ cells, 0 ≤ v c) (k : α) :
    (placementOf cells v k).inGrid = true ↔ 0 < (cells.map v).sum := by
  rw [sum_pos_iff hv, placementOf, Bool.not_eq_true', List.isEmpty_eq_false_iff_exists_mem]
  exact exists_congr fun c => mem_listed

variable [ExactTally α]

theorem coveredShare_eq : (coveredShare : α) = 9999 / 10000 := by
  rw [coveredShare, ExactTally.ratio_eq]
  norm_num

theorem covered_placementOf (k : α) : (placementOf cells v k).covered = true ↔
    9999 / 10000 < (placementOf cells v k).fractions.sum := by
  rw [← coveredShare_eq]
  exact decide_eq_true_iff

/-- What `locate` does with the cells it has found. -/
theorem place_listed {hits : List (Cell ρ α × α)} {fractions : List α} {k : α}
    (hcells : hits.map (·.1) = listed cells v)
    (hfractions : fractions = (listed cells v).map fun c => v c * k) :
    (if hits.isEmpty then .ok nowhere else placement (ε := ε) hits fractions) =
      .ok (placementOf cells v k) := by
  rw [← List.isEmpty_map (f := fun h : Cell ρ α × α => h.1), hcells, hfractions]
  cases hempty : (listed cells v).isEmpty with
  | true =>
    have hshare : ¬ (coveredShare : α) < 0 := by
      rw [coveredShare_eq]
      norm_num
    simp [placementOf, List.isEmpty_iff.mp hempty, nowhere, hshare]
  | false =>
    have hplaces : hits.map (fun h => h.1.place) = (listed cells v).map (·.place) := by
      rw [← hcells, List.map_map]
      rfl
    rw [placement, Engine.add_eq_sum, placementOf, hempty, hplaces]
    rfl

end Listed

section Values

variable [Region ρ α ε]

/-- What a cell has in common with a footprint, measured in the dimension of the footprint. -/
def inCell (q : ρ) (c : Cell ρ α) : α := Region.shared (Region.dimension q) c.footprint q

omit [LinearOrder α] in
theorem inCell_eq {q : ρ} {d : Int} (hd : Region.dimension q = d) :
    (inCell q : Cell ρ α → α) = fun c => Region.shared d c.footprint q :=
  hd ▸ rfl

/-- What turns the parts of a line or an area in the cells into shares of the whole. The parts of a
line are scaled down to its part in the grid, since cells that touch have some of them in common. -/
def scale (g : Grid ρ α) (q : ρ) : α :=
  if Region.dimension q = 1 then
    min (Region.shared 1 g.extent q / (g.cells.map fun c => Region.shared 1 c.footprint q).sum) 1 /
      Region.measure 1 q
  else 1 / Region.measure (Region.dimension q) q

/-- A footprint without measure counts as one in each cell that it meets. -/
def met (q : ρ) (c : Cell ρ α) : α := if Region.meets c.footprint q then 1 else 0

/-- The number of cells that meet a footprint. -/
def meetCount (g : Grid ρ α) (q : ρ) : ℕ := g.cells.countP fun c => Region.meets c.footprint q

omit [Field α] [LinearOrder α] in
theorem meetCount_pos_iff {g : Grid ρ α} {q : ρ} :
    0 < g.meetCount q ↔ ∃ c ∈ g.cells, Region.meets c.footprint q = true :=
  List.countP_pos_iff

omit [LinearOrder α] in
theorem sum_met (g : Grid ρ α) (q : ρ) : (g.cells.map (met q)).sum = (g.meetCount q : α) := by
  unfold met
  rw [← sum_filter, meetCount, List.countP_eq_length_filter]
  simp

theorem met_pos_iff [IsStrictOrderedRing α] {q : ρ} {c : Cell ρ α} :
    0 < (met q c : α) ↔ Region.meets c.footprint q = true := by
  unfold met
  split <;> simp [*]

def pointsOf (q : ρ) : List ρ := (Region.parts q).filter Region.isPoint

omit [Field α] [LinearOrder α] in
theorem pointsOf_eq {q : ρ} (h : ∀ p ∈ Region.parts q, Region.isPoint p = true) :
    pointsOf q = Region.parts q :=
  List.filter_eq_self.mpr h

/-- What a cell gets of some points: its part of every point it contains, each point being split
among all cells that contain it. -/
def pointShare (g : Grid ρ α) (points : List ρ) (c : Cell ρ α) : α :=
  ((points.filter fun p => Region.meets c.footprint p).map fun p =>
    1 / ((g.meetCount p : α) * points.length)).sum

omit [LinearOrder α] in
theorem pointShare_eq (g : Grid ρ α) (points : List ρ) (c : Cell ρ α) :
    g.pointShare points c =
      (points.map fun p => met p c * (1 / ((g.meetCount p : α) * points.length))).sum := by
  unfold pointShare met
  simp only [sum_filter, ite_mul, one_mul, zero_mul]

/-- Each point is divided among the cells that contain it, and by the number of all points. -/
theorem pointShare_mul_length [IsStrictOrderedRing α] (g : Grid ρ α) (points : List ρ)
    (c : Cell ρ α) : g.pointShare points c * points.length =
      ((points.filter fun p => Region.meets c.footprint p).map fun p =>
        1 / (g.meetCount p : α)).sum := by
  rw [pointShare, ← List.sum_map_mul_right]
  refine congrArg List.sum (List.map_congr_left fun p hp => ?_)
  have hpoints : (points.length : α) ≠ 0 := by
    exact_mod_cast (List.length_pos_of_mem (List.mem_of_mem_filter hp)).ne'
  rw [one_div, mul_inv, inv_mul_cancel_right₀ hpoints, one_div]

/-- Every point that is in some cell is counted once. -/
theorem sum_pointShare [IsStrictOrderedRing α] (g : Grid ρ α) (points : List ρ) :
    (g.cells.map (g.pointShare points)).sum =
      ((points.countP fun p => 0 < g.meetCount p : ℕ) : α) / points.length := by
  have hpoint (p : ρ) :
      (g.cells.map fun c => met p c * (1 / ((g.meetCount p : α) * points.length))).sum =
        if decide (0 < g.meetCount p) then (1 : α) / points.length else 0 := by
    rw [List.sum_map_mul_right, sum_met]
    by_cases hpos : 0 < g.meetCount p
    · have hcast : (g.meetCount p : α) ≠ 0 := Nat.cast_ne_zero.mpr hpos.ne'
      rw [if_pos (decide_eq_true hpos), one_div, mul_inv, mul_inv_cancel_left₀ hcast, one_div]
    · have hzero : g.meetCount p = 0 := Nat.eq_zero_of_not_pos hpos
      rw [if_neg (by simpa using hzero), hzero, Nat.cast_zero, zero_mul]
  rw [List.map_congr_left fun c _ => pointShare_eq g points c, sum_map_comm,
    List.map_congr_left fun p _ => hpoint p, ← sum_filter, List.countP_eq_length_filter]
  simp [div_eq_mul_inv]

theorem pointShare_pos_iff [IsStrictOrderedRing α] (g : Grid ρ α) (points : List ρ) {c : Cell ρ α}
    (hc : c ∈ g.cells) :
    0 < g.pointShare points c ↔ ∃ p ∈ points, Region.meets c.footprint p = true := by
  have hpos : ∀ p ∈ points.filter fun p => Region.meets c.footprint p,
      (0 : α) < 1 / ((g.meetCount p : α) * points.length) := by
    intro p hp
    obtain ⟨hmem, hmeets⟩ := List.mem_filter.mp hp
    have hcells : 0 < g.meetCount p := meetCount_pos_iff.mpr ⟨c, hc, hmeets⟩
    have hpoints := List.length_pos_of_mem hmem
    positivity
  rw [pointShare, sum_pos_iff fun p hp => (hpos p hp).le]
  constructor
  · rintro ⟨p, hp, -⟩
    exact ⟨p, List.mem_filter.mp hp⟩
  · rintro ⟨p, hp, hmeets⟩
    have hmem := List.mem_filter.mpr ⟨hp, hmeets⟩
    exact ⟨p, hmem, hpos p hmem⟩

end Values

section Locate

variable [Region ρ α ε] [GeneralizedBooleanAlgebra B] {place : ρ → B} (hs : Region.Spatial place)

include hs

/-! ## Lines and areas -/

theorem overlaps_eq (q : ρ) (d : Int) (cells : List (Cell ρ α)) :
    overlaps (ε := ε) q d cells = .ok ((cells.filter fun c => 0 < Region.shared d c.footprint q).map
      fun c => (c, Region.shared d c.footprint q)) := by
  induction cells with
  | nil => rfl
  | cons c cells ih =>
    rw [overlaps, ih, List.filter_cons]
    cases hmeets : Region.meets c.footprint q with
    | true =>
      obtain ⟨p, hp, -⟩ := hs.meet_place c.footprint q
      have hshared := Region.shared_eq (d := d) hp
      rw [if_pos rfl, Fault.meet, hp]
      by_cases hpos : 0 < Region.measure d p <;>
        simp [hshared, hpos, Except.mapError, bind, Except.bind, pure, Except.pure]
    | false =>
      have hnot : ¬ 0 < Region.shared d c.footprint q := by
        intro hpos
        rw [hs.meets_of_shared_pos hpos] at hmeets
        cases hmeets
      simp [hnot]

theorem overlaps_near (g : Grid ρ α) (q : ρ) :
    (overlaps (ε := ε) q (Region.dimension q) (g.near q)).map inOrder =
      .ok ((listed g.cells (inCell q)).map fun c => (c, inCell q c)) := by
  have hnear : ((g.near q).filter fun c => 0 < inCell q c) = g.cells.filter fun c => 0 < inCell q c := by
    rw [near, List.filter_filter]
    refine List.filter_congr fun c _ => ?_
    rw [Bool.and_eq_left_iff_imp, decide_eq_true_iff]
    exact fun hpos => hs.isNear_of_meets (hs.meets_of_shared_pos hpos)
  rw [overlaps_eq hs]
  change Except.ok (inOrder (((g.near q).filter fun c => 0 < inCell q c).map _)) = _
  rw [hnear]
  exact congrArg Except.ok (inOrder_map _ _)

variable [IsStrictOrderedRing α] [Tally α] [ExactTally α]

theorem locate_sized (g : Grid ρ α) {q : ρ} (hdim : 0 < Region.dimension q)
    (hpos : 0 < Region.measure (Region.dimension q) q) :
    g.locate (ε := ε) q = .ok (placementOf g.cells (inCell q) (g.scale q)) := by
  have hnonneg : ∀ c ∈ g.cells, 0 ≤ inCell q c := fun c _ => hs.shared_nonneg _ _ _
  obtain ⟨hits, hhits, hlisted⟩ := map_eq_ok.mp (overlaps_near hs g q)
  have hcells : (inOrder hits).map (·.1) = listed g.cells (inCell q) := by
    rw [hlisted, List.map_map]
    exact List.map_id _
  have hfractions (k : α) : (inOrder hits).map (fun h => h.2 * k) =
      (listed g.cells (inCell q)).map fun c => inCell q c * k := by
    rw [hlisted, List.map_map]
    rfl
  have hcounted : ((inOrder hits).map (·.2)).sum = (g.cells.map (inCell q)).sum := by
    have hvalues := hfractions 1
    simp only [mul_one] at hvalues
    rw [hvalues]
    simpa using sum_listed hnonneg 1
  rw [locate, if_neg (by omega), if_neg (by omega), if_neg (not_le.mpr hpos)]
  rw [← place_listed (ε := ε) hcells (hfractions _), hhits]
  simp only [bind, Except.bind, Engine.add_eq_sum, hcounted]
  split
  · rfl
  · rename_i hsome
    have hsum : 0 < (g.cells.map (inCell q)).sum := by
      rw [hlisted, List.isEmpty_map, List.isEmpty_iff] at hsome
      obtain ⟨c, hc⟩ := List.exists_mem_of_ne_nil _ hsome
      exact (sum_pos_iff hnonneg).mpr ⟨c, mem_listed.mp hc⟩
    by_cases hline : Region.dimension q = 1
    · obtain ⟨p, hp, -⟩ := hs.meet_place g.extent q
      rw [if_pos ⟨hline, hsum⟩, Fault.meet, hp, scale, if_pos hline, Region.shared_eq hp, min_comm,
        min_def_lt, hline, inCell_eq hline]
      rfl
    · rw [if_neg fun h => hline h.1, scale, if_neg hline]
      rfl

/-! ## Points -/

omit [IsStrictOrderedRing α] [Tally α] [ExactTally α] in
theorem touching_eq (g : Grid ρ α) (p : ρ) :
    g.touching p = g.cells.filter fun c => Region.meets c.footprint p := by
  refine List.filter_congr fun c _ => ?_
  cases hmeets : Region.meets c.footprint p with
  | true => rw [hs.isNear_of_meets hmeets, Bool.and_true]
  | false => rw [Bool.and_false]

omit [IsStrictOrderedRing α] [Tally α] [ExactTally α] in
/-- Among the parts of all points those of one cell, one for each point it contains. -/
theorem filter_parts {g : Grid ρ α} (hg : g.Accepted) {c : Cell ρ α} (hc : c ∈ g.cells)
    (points : List ρ) (w : ρ → α) :
    ((points.flatMap fun p => (g.touching p).map fun d => (d.row, d.col, w p)).filter fun s =>
        s.1 = c.row && s.2.1 = c.col) =
      (points.filter fun p => Region.meets c.footprint p).map fun p => (c.row, c.col, w p) := by
  induction points with
  | nil => rfl
  | cons p points ih =>
    have hown : (g.touching p).filter (fun d => d.row = c.row && d.col = c.col) =
        if Region.meets c.footprint p then [c] else [] := by
      rw [touching_eq hs, List.filter_filter]
      simp only [Bool.and_comm _ (Region.meets _ p)]
      rw [← List.filter_filter, filter_place hg.nodup_places hc, List.filter_singleton,
        Bool.cond_eq_ite]
    rw [List.flatMap_cons, List.filter_append, ih, List.filter_map]
    change ((g.touching p).filter fun d => d.row = c.row && d.col = c.col).map _ ++ _ = _
    rw [hown]
    cases hmeets : Region.meets c.footprint p <;> simp [hmeets]

omit [IsStrictOrderedRing α] in
theorem part_eq (g : Grid ρ α) (points : List ρ) (p : ρ) :
    (1 : α) / Tally.ratio ((g.touching p).length * points.length : Nat) 1 =
      1 / ((g.meetCount p : α) * points.length) := by
  rw [ExactTally.ratio_eq, touching_eq hs, meetCount, List.countP_eq_length_filter]
  simp

/-- The cells that contain some of the points, with what each gets of them. -/
theorem found_points {g : Grid ρ α} (hg : g.Accepted) (points : List ρ) :
    let shares : List (Int × Int × α) := points.flatMap fun p => (g.touching p).map fun c =>
      (c.row, c.col, 1 / Tally.ratio ((g.touching p).length * points.length : Nat) 1)
    ((g.cells.filter fun c => shares.any fun s => s.1 = c.row && s.2.1 = c.col).mapM fun c => do
        let own := shares.filter fun s => s.1 = c.row && s.2.1 = c.col
        return (c, ← Fault.add (own.map (·.2.2)))) = Except.ok (ε := Fault ε)
      ((g.cells.filter fun c => 0 < g.pointShare points c).map fun c => (c, g.pointShare points c)) := by
  intro shares
  have hown {c : Cell ρ α} (hc : c ∈ g.cells) :
      shares.filter (fun s => s.1 = c.row && s.2.1 = c.col) =
        (points.filter fun p => Region.meets c.footprint p).map fun p => (c.row, c.col, _) :=
    filter_parts hs hg hc points _
  have htouched : g.cells.filter (fun c => shares.any fun s => s.1 = c.row && s.2.1 = c.col) =
      g.cells.filter fun c => 0 < g.pointShare points c := by
    refine List.filter_congr fun c hc => ?_
    have hany : shares.any (fun s => s.1 = c.row && s.2.1 = c.col) = true ↔
        shares.filter (fun s => s.1 = c.row && s.2.1 = c.col) ≠ [] := by
      simp [List.filter_eq_nil_iff]
    rw [Bool.eq_iff_iff, decide_eq_true_iff, pointShare_pos_iff g _ hc, hany, hown hc]
    simp [List.filter_eq_nil_iff]
  rw [htouched]
  refine (mapM_congr fun c hc => ?_).trans (List.mapM_pure (m := Except (Fault ε)))
  dsimp only
  rw [Engine.add_eq_sum, hown (List.mem_filter.mp hc).1, List.map_map, pointShare]
  simp only [Function.comp_def, part_eq hs]
  rfl

theorem locate_points {g : Grid ρ α} (hg : g.Accepted) {q : ρ} (hdim : Region.dimension q = 0) :
    g.locate (ε := ε) q = .ok (placementOf g.cells (g.pointShare (pointsOf q)) 1) := by
  obtain ⟨hits, hhits⟩ : ∃ hits, hits = (g.cells.filter fun c =>
    0 < g.pointShare (pointsOf q) c).map fun c => (c, g.pointShare (pointsOf q) c) := ⟨_, rfl⟩
  have hlisted : inOrder hits =
      (listed g.cells (g.pointShare (pointsOf q))).map fun c => (c, g.pointShare (pointsOf q) c) := by
    rw [hhits]
    exact inOrder_map _ _
  have hempty : hits.isEmpty = (inOrder hits).isEmpty := by
    rw [Bool.eq_iff_iff, List.isEmpty_iff_length_eq_zero, List.isEmpty_iff_length_eq_zero, inOrder,
      List.length_mergeSort]
  rw [locate, if_neg (by omega), if_pos hdim, locatePoints]
  refine (congrArg (· >>= _) ((found_points hs hg (pointsOf q)).trans
    (congrArg Except.ok hhits.symm))).trans ?_
  change (if hits.isEmpty = true then Except.ok nowhere
    else placement (inOrder hits) ((inOrder hits).map (·.2))) = _
  rw [hempty, hlisted]
  refine place_listed (by rw [List.map_map]; exact List.map_id _) ?_
  rw [List.map_map]
  exact List.map_congr_left fun c _ => (mul_one _).symm

/-! ## Footprints without measure -/

theorem locate_degenerate (g : Grid ρ α) {q : ρ} (hdim : 0 < Region.dimension q)
    (hzero : Region.measure (Region.dimension q) q ≤ 0) :
    g.locate (ε := ε) q = .ok (placementOf g.cells (met q) (1 / (g.meetCount q : α))) := by
  have hmet : (g.near q).filter (fun c => Region.meets c.footprint q) =
      g.cells.filter fun c => 0 < (met q c : α) := by
    rw [near, List.filter_filter]
    refine List.filter_congr fun c _ => ?_
    simp only [met_pos_iff, Bool.decide_eq_true, Bool.and_eq_left_iff_imp]
    exact hs.isNear_of_meets
  rw [locate, if_neg (by omega), if_neg (by omega), if_pos hzero]
  dsimp only
  rw [hmet, inOrder_map _ fun _ => 1]
  refine place_listed (by rw [List.map_map]; exact List.map_id _) ?_
  rw [List.map_map, List.length_map]
  refine List.map_congr_left fun c hc => ?_
  have hone : (met q c : α) = 1 := if_pos (met_pos_iff.mp (mem_listed.mp hc).2)
  have hlength : (listed g.cells (met q : Cell ρ α → α)).length = g.meetCount q := by
    rw [length_listed]
    simp only [met_pos_iff, Bool.decide_eq_true, meetCount]
  rw [hone]
  simp [ExactTally.ratio_eq, ← hlength, listed]

end Locate

end Gridding.Grid
