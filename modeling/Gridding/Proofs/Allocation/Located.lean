import Gridding.Proofs.Allocation.Measured
import Gridding.Proofs.Grid.Placement
import Gridding.Surrogate.Layer

/-!
# Allocation by one row

The dataset of a single row allocates a shape that contains the row to the cells in which `locate`
finds the row. An area is one granule, whose weight cancels, be it a density or not. Points are a
granule each. A point on an edge is counted in every cell that it touches and scaled down to one.

The weights are the fractions that `locate` reports, unless there are empty points among those of the
row. An empty point has no clip and nothing is allocated for it, but `locate` divides by the number of
all points.
-/

namespace Gridding

variable {ρ α ε B : Type} [Region ρ α ε] [Field α] [LinearOrder α]

namespace Dataset

variable [Tally α] [BEq α] {q : ρ} {w : α} (asDensity : Bool)

theorem ofRows_one (q : ρ) (w : α) : ofRows asDensity [(q, w)] =
    ⟨rowGranules (Region.dimension q) asDensity (q, w), Region.dimension q⟩ := by
  have hdim : greatestDimension [q] = Region.dimension q := rfl
  simp [ofRows, hdim]

variable [LawfulBEq α] (hne : Region.isEmpty q = false) (hw : 0 < w)
  (hfinite : Tally.isFinite w = true)

include hne hw hfinite

theorem rowGranules_of_pos (dim : Int) : rowGranules dim asDensity (q, w) =
    if dim = 0 then (Region.parts q).map fun p => ⟨p, w⟩
    else if asDensity && 0 < dim then
      if Region.measure dim q ≤ 0 then [] else [⟨q, w / Region.measure dim q⟩]
    else [⟨q, w⟩] := by
  have husable : (Region.isEmpty q || !Tally.isFinite w || w == 0) = false := by
    rw [hne, hfinite, beq_eq_false_iff_ne.mpr hw.ne']
    rfl
  rw [rowGranules, husable]
  simp

theorem ofRows_area (harea : Region.dimension q = 2) (hpos : 0 < Region.measure 2 q) :
    ofRows asDensity [(q, w)] = ⟨[⟨q, if asDensity then w / Region.measure 2 q else w⟩], 2⟩ := by
  rw [ofRows_one, harea, rowGranules_of_pos asDensity hne hw hfinite, if_neg two_ne_zero,
    if_neg hpos.not_ge]
  cases asDensity <;> rfl

theorem ofRows_points (hpoints : Region.dimension q = 0) :
    ofRows asDensity [(q, w)] = ⟨(Region.parts q).map fun p => ⟨p, w⟩, 0⟩ := by
  rw [ofRows_one, hpoints, rowGranules_of_pos asDensity hne hw hfinite, if_pos rfl]

end Dataset

/-- A layer of one row in longitude and latitude gives the dataset of this row. -/
theorem Layer.dataset_one_row {g : Geometry} {columns : List Column} {r : Layer.Request} {w : Float}
    (hg : Region.isEmpty (Footprint.mk g) = false) (hfilter : r.filter = none)
    (hclip : r.clipTo = none) (htolerance : (r.tolerance == 0.0) = true)
    (hweight : rowWeights (columns.map (·.select [0])) 1 r.weightColumns r.weightFactors = .ok [w]) :
    Layer.dataset ⟨[some g], columns, .known .lonLat⟩ r =
      .ok (Dataset.ofRows r.asDensity [(⟨g⟩, w)]) := by
  have hpresent : Table.present ⟨[some (Footprint.mk g)], columns⟩ =
      ⟨[some ⟨g⟩], columns.map (·.select [0])⟩ := by
    simp [Table.present, Table.having, Table.placesWhere, Table.size, Table.select, hg]
  have hsimplify : Footprint.simplify r.tolerance ⟨g⟩ = .ok ⟨g⟩ := if_pos htolerance
  have hlonlat : Table.inLonLat (.known .lonLat) ⟨[some (Footprint.mk g)], columns⟩ =
    .ok ⟨[some ⟨g⟩], columns⟩ := rfl
  have hused : Table.used (Table.inLonLat (.known .lonLat)) ⟨[some (Footprint.mk g)], columns⟩
      r.toRequest = .ok ⟨[some ⟨g⟩], columns.map (·.select [0])⟩ := by
    rw [Table.used, hfilter, hclip, Table.filtered]
    simp [Except.mapError, bind, Except.bind, hlonlat, hpresent, pure, Except.pure]
  change (Table.weightedRows _ _ ⟨[some (Footprint.mk g)], columns⟩ r.toRequest).map _ = _
  rw [Table.weightedRows, hused]
  simp [Table.size, hweight, hsimplify, Except.mapError, Except.map, bind, Except.bind, pure,
    Except.pure]

namespace Engine

variable [GeneralizedBooleanAlgebra B] {place : ρ → B} {part : ρ → ρ → ρ}

theorem cells_eq_listed (cells : List (Cell ρ α)) (f : Cell ρ α → α) :
    ((cells.map fun c => (c, f c)).filterMap positive).mergeSort Cell.precedes =
      (Grid.listed cells f).map fun c => c.withWeight (f c) := by
  have hkept : (cells.map fun c => (c, f c)).filterMap positive =
      (cells.filter fun c => 0 < f c).map fun c => c.withWeight (f c) := by
    rw [List.filterMap_map, ← List.filterMap_eq_map, List.filterMap_filter]
    refine List.filterMap_congr fun c _ => ?_
    by_cases hc : 0 < f c <;> simp [positive, hc]
  rw [hkept, Grid.listed]
  exact (List.map_mergeSort (f := fun c : Cell ρ α => c.withWeight (f c)) fun _ _ _ _ => rfl).symm

/-- An allocation whose exact weights are values times a factor is the placement by these values. -/
theorem agree_placementOf [IsStrictOrderedRing α] [Tally α] {cells found : List (Cell ρ α)}
    {f v : Cell ρ α → α} {k : α} (hk : 0 < k) (hf : ∀ c ∈ cells, f c = v c * k)
    (hfound : found = ((cells.map fun c => (c, f c)).filterMap positive).mergeSort Cell.precedes) :
    found.map (·.place) = (Grid.placementOf cells v k).cells ∧
      found.map (·.weight) = (Grid.placementOf cells v k).fractions := by
  have hlisted : Grid.listed cells f = Grid.listed cells v := by
    refine congrArg (List.mergeSort · Cell.precedes) (List.filter_congr fun c hc => ?_)
    rw [Bool.eq_iff_iff, decide_eq_true_iff, decide_eq_true_iff, hf c hc, mul_pos_iff_of_pos_right hk]
  rw [hfound, cells_eq_listed, List.map_map, List.map_map, hlisted]
  refine ⟨rfl, List.map_congr_left fun c hc => ?_⟩
  exact hf c (Grid.mem_listed.mp hc).1

variable (hs : Region.Spatial place) (hc : Region.Clipping ρ)
  (hpart : ∀ a b, Region.meet a b = .ok (part a b))

omit [LinearOrder α] in
include hc hpart in
theorem clipWith_covered {shape : Shape ρ} {g : Granule ρ α} (hne : Region.isEmpty g.footprint = false)
    (hcovers : Region.covers shape.footprint g.footprint = true) (dim : Int) :
    clipWith part shape dim g = some ⟨g, g.weight * Region.measure dim g.footprint⟩ := by
  have hwhole : part g.footprint shape.footprint = g.footprint :=
    Except.ok.inj ((hpart _ _).symm.trans (hc.meet_of_covers _ _ hcovers))
  simp [clipWith, hwhole, hne]

include hs hpart in
theorem overlapWith_eq_shared (d : Int) (cell : Cell ρ α) (r : ρ) :
    (overlapWith part d cell r).getD 0 = Region.shared d r cell.footprint := by
  rw [Region.shared_eq (hpart r cell.footprint)]
  exact overlapWith_eq_measure (hs.measure_nonneg d _) (hs.measure_of_isEmpty d _)

include hs hc in
/-- A point has itself in common with what it meets. -/
theorem shared_point {p a : ρ} (hp : Region.isPoint p = true) (hne : Region.isEmpty p = false) :
    Region.shared 0 p a = if Region.meets a p then (1 : α) else 0 := by
  split
  · rename_i hmeets
    rw [Region.shared_eq (hc.meet_of_covers a p ((hs.covers_point_iff hp hne).mpr hmeets)),
      hc.measure_of_isPoint p hp hne]
  · rename_i hnone
    by_contra hne
    have hpos := lt_of_le_of_ne (hs.shared_nonneg 0 p a) (Ne.symm hne)
    rw [hc.shared_comm] at hpos
    exact hnone (hs.meets_of_shared_pos hpos)

/-- The weight of the only granule cancels against the total. -/
theorem exactWeight_area [IsStrictOrderedRing α] (cells : List (Cell ρ α))
    (amount : Cell ρ α → Clip ρ α → α) {c : Clip ρ α} (hc : 0 < c.granule.weight) (size : α)
    (cell : Cell ρ α) :
    exactWeight 2 [c] (c.granule.weight * size) cells amount cell = amount cell c * (1 / size) := by
  have hshare (x y : α) : shareOf 2 x y = 1 := if_pos le_rfl
  simp only [exactWeight, List.map_cons, List.map_nil, List.sum_cons, List.sum_nil, add_zero, hshare,
    mul_one]
  field_simp

/-- A point that is in `n` cells has an `n`-th of it in each. -/
theorem shareOf_point [IsStrictOrderedRing α] {n : ℕ} (hn : 0 < n) :
    shareOf 0 1 (n : α) = 1 / n := by
  have hone : (1 : α) ≤ n := Nat.one_le_cast.mpr hn
  rw [shareOf, if_neg (by norm_num), if_pos (by positivity), min_eq_left]
  exact (div_le_one (by positivity)).mpr hone

/-- All points weigh the same, and the overlaps of each are scaled down to one. -/
theorem exactWeight_points [IsStrictOrderedRing α] (g : Grid ρ α) (points : List ρ)
    (amount : Cell ρ α → Clip ρ α → α) {c : ρ → Clip ρ α} {w : α} (hw : 0 < w)
    (hc : ∀ p ∈ points, (c p).granule = ⟨p, w⟩ ∧ Region.measure 0 p = 1 ∧
      ∀ cell, amount cell (c p) = Grid.met p cell) {cell : Cell ρ α} (hcell : cell ∈ g.cells) :
    exactWeight 0 (points.map c) (points.length * w) g.cells amount cell =
      g.pointShare points cell := by
  rw [exactWeight, Grid.pointShare_eq, List.map_map, div_eq_mul_inv, ← List.sum_map_mul_right]
  refine congrArg List.sum (List.map_congr_left fun p hp => ?_)
  obtain ⟨hgranule, hone, hamount⟩ := hc p hp
  have hsum : (g.cells.map fun d => amount d (c p)).sum = (g.meetCount p : α) := by
    rw [← Grid.sum_met]
    exact congrArg List.sum (List.map_congr_left fun d _ => hamount d)
  rw [Function.comp_apply, hsum, hgranule, hone, hamount, Grid.met]
  split
  · rename_i hmeets
    have hcells : 0 < g.meetCount p := Grid.meetCount_pos_iff.mpr ⟨cell, hcell, hmeets⟩
    have hpoints := List.length_pos_of_mem hp
    rw [shareOf_point hcells]
    field_simp
  · simp

include hs hpart in
/-- There is nothing of an empty region in a shape. -/
theorem clipWith_of_isEmpty {shape : Shape ρ} {g : Granule ρ α}
    (hempty : Region.isEmpty g.footprint = true) (dim : Int) : clipWith part shape dim g = none := by
  have hplace := hs.place_of_meet (hpart g.footprint shape.footprint)
  rw [(hs.isEmpty_iff _).mp hempty, bot_inf_eq] at hplace
  simp [clipWith, (hs.isEmpty_iff _).mpr hplace]

include hs hc hpart in
/-- The clips of points within a shape are the points that are not empty. -/
theorem clipWith_points {shape : Shape ρ} {w : α} {points : List ρ}
    (hcovers : ∀ p ∈ points, Region.isEmpty p = false → Region.covers shape.footprint p = true) :
    (points.map fun p => ⟨p, w⟩).filterMap (clipWith part shape 0) =
      (points.filter fun p => !Region.isEmpty p).map fun p => ⟨⟨p, w⟩, w * Region.measure 0 p⟩ := by
  rw [List.filterMap_map, ← List.filterMap_eq_map, List.filterMap_filter]
  refine List.filterMap_congr fun p hp => ?_
  cases hempty : Region.isEmpty p with
  | true => exact clipWith_of_isEmpty hs hpart hempty 0
  | false => exact clipWith_covered hc hpart (g := ⟨p, w⟩) hempty (hcovers p hp hempty) 0

omit [LinearOrder α] in
include hc in
/-- Each point contributes its weight. -/
theorem sum_contribution_points (w : α) {points : List ρ}
    (hpoints : ∀ p ∈ points, Region.isPoint p = true ∧ Region.isEmpty p = false) :
    ((points.map fun p => (⟨⟨p, w⟩, w * Region.measure 0 p⟩ : Clip ρ α)).map
      (·.contribution)).sum = points.length * w := by
  have hsame (p : ρ) (hp : p ∈ points) : w * Region.measure 0 p = w := by
    rw [hc.measure_of_isPoint p (hpoints p hp).1 (hpoints p hp).2, mul_one]
  rw [List.map_map, ← nsmul_eq_mul, ← List.sum_replicate, ← List.map_const']
  exact congrArg List.sum (List.map_congr_left hsame)

include hs in
/-- An empty point is in no cell, but counts where the number of points is taken. -/
theorem pointShare_filledParts [IsStrictOrderedRing α] (grid : Grid ρ α) (q : ρ) (cell : Cell ρ α) :
    grid.pointShare (Region.filledParts q) cell * (Region.filledParts q).length =
      grid.pointShare (Region.parts q) cell * (Region.parts q).length := by
  have hsame : ((Region.filledParts q).filter fun p => Region.meets cell.footprint p) =
      (Region.parts q).filter fun p => Region.meets cell.footprint p := by
    rw [Region.filledParts, List.filter_filter]
    refine List.filter_congr fun p _ => ?_
    cases hempty : Region.isEmpty p with
    | true => rw [hs.meets_of_isEmpty hempty, Bool.false_and]
    | false => rw [Bool.not_false, Bool.and_true]
  rw [Grid.pointShare_mul_length, Grid.pointShare_mul_length, hsame]

include hs in
theorem length_div_filledParts_eq_one_iff [IsStrictOrderedRing α] {q : ρ}
    (hne : Region.isEmpty q = false) :
    ((Region.parts q).length / (Region.filledParts q).length : α) = 1 ↔
      ∀ r ∈ Region.parts q, Region.isEmpty r = false := by
  have hlength := hs.length_filledParts_pos hne
  rw [div_eq_one_iff_eq (by positivity), Nat.cast_inj, ← Region.filledParts_eq_iff, eq_comm]
  exact (Region.filledParts_sublist q).length_eq

section Agree

variable [IsStrictOrderedRing α] [Tally α] [ExactTally α] [BEq α] [LawfulBEq α] {shape : Shape ρ}
  {grid : Grid ρ α} {q : ρ} {w : α} (hne : Region.isEmpty q = false) (hw : 0 < w)
  (hfinite : Tally.isFinite w = true) (hcovers : Region.covers shape.footprint q = true)

include hs hc hne hw hfinite hcovers

theorem area_agrees (workers : Int) (asDensity : Bool) (harea : Region.dimension q = 2)
    (hpos : 0 < Region.measure 2 q) :
    ∃ a p, allocate workers shape grid (Dataset.ofRows asDensity [(q, w)]) = .ok a ∧
      grid.locate (ε := ε) q = .ok p ∧ a.cells.map (·.place) = p.cells ∧
      a.cells.map (·.weight) = p.fractions := by
  choose part hpart using fun a b => (hs.meet_place a b).imp fun p hp => hp.1
  have := hs.lossless
  obtain ⟨u, hu, hrows⟩ : ∃ u, 0 < u ∧ Dataset.ofRows asDensity [(q, w)] = ⟨[⟨q, u⟩], 2⟩ := by
    refine ⟨_, ?_, Dataset.ofRows_area asDensity hne hw hfinite harea hpos⟩
    split
    · exact div_pos hw hpos
    · exact hw
  have hclips : [⟨⟨q, u⟩, u * Region.measure 2 q⟩] = [⟨q, u⟩].filterMap (clipWith part shape 2) := by
    rw [List.filterMap_cons_some (clipWith_covered hc hpart hne hcovers 2), List.filterMap_nil]
  obtain ⟨a, ha, htotal, -, hcells⟩ := exists_allocate hpart workers shape grid ⟨[⟨q, u⟩], 2⟩ hclips
  rw [List.map_singleton, List.sum_singleton] at htotal
  have hlocate := Grid.locate_sized hs grid (by omega) (harea ▸ hpos)
  rw [Grid.scale, if_neg (by omega), Grid.inCell_eq harea, harea] at hlocate
  refine ⟨a, _, hrows ▸ ha, hlocate, agree_placementOf (by positivity) (fun c _ => ?_)
    (hcells (htotal ▸ (mul_pos hu hpos).ne'))⟩
  dsimp only
  rw [htotal, exactWeight_area _ _ hu, overlapWith_eq_shared hs hpart, hc.shared_comm]

/-- The cells are those in which the points are located. What is allocated to them is divided by the
number of points that are not empty, the fractions by the number of all points. -/
theorem points_agree (workers : Int) (asDensity : Bool) (hgrid : grid.Accepted)
    (hpoints : Region.dimension q = 0) (hparts : ∀ p ∈ Region.parts q, Region.isPoint p = true) :
    ∃ a p, allocate workers shape grid (Dataset.ofRows asDensity [(q, w)]) = .ok a ∧
      grid.locate (ε := ε) q = .ok p ∧
      p = Grid.placementOf grid.cells (grid.pointShare (Region.parts q)) 1 ∧
      a.cells.map (·.place) = p.cells ∧ a.cells.map (·.weight) = p.fractions.map
        (· * ((Region.parts q).length / (Region.filledParts q).length : α)) := by
  choose part hpart using fun a b => (hs.meet_place a b).imp fun p hp => hp.1
  have := hs.lossless
  have hclips := clipWith_points hs hc hpart (w := w) fun p => hs.covers_of_mem_parts hcovers
  have hfilled (p : ρ) (hp : p ∈ Region.filledParts q) :
      Region.isPoint p = true ∧ Region.isEmpty p = false :=
    (Region.mem_filledParts.mp hp).imp_left (hparts p)
  obtain ⟨a, ha, htotal, -, hcells⟩ := exists_allocate hpart workers shape grid
    ⟨(Region.parts q).map fun p => ⟨p, w⟩, 0⟩ hclips.symm
  have hlength := hs.length_filledParts_pos hne
  have hall := hs.length_parts_pos hne
  have htotal : a.totalWeight = (Region.filledParts q).length * w :=
    htotal.trans (sum_contribution_points hc w hfilled)
  have hlocate := Grid.locate_points hs hgrid hpoints
  rw [Grid.pointsOf_eq hparts] at hlocate
  have hshare (c : Cell ρ α) (hmem : c ∈ grid.cells) :
      exactWeight 0 ((Region.filledParts q).map fun p => ⟨⟨p, w⟩, w * Region.measure 0 p⟩)
          a.totalWeight grid.cells
          (fun cell c => (overlapWith part 0 cell c.granule.footprint).getD 0) c =
        grid.pointShare (Region.parts q) c *
          ((Region.parts q).length / (Region.filledParts q).length) := by
    rw [htotal, exactWeight_points grid (Region.filledParts q) _ hw _ hmem, mul_div_assoc',
      ← pointShare_filledParts hs, mul_div_cancel_right₀ _ (by positivity)]
    refine fun p hp => ⟨rfl, hc.measure_of_isPoint p (hfilled p hp).1 (hfilled p hp).2, fun cell => ?_⟩
    rw [overlapWith_eq_shared hs hpart]
    exact shared_point hs hc (hfilled p hp).1 (hfilled p hp).2
  obtain ⟨hplaces, hweights⟩ :=
    agree_placementOf (by positivity) hshare (hcells (htotal.trans_ne (by positivity)))
  refine ⟨a, _, ?_, hlocate, rfl, hplaces, hweights.trans ?_⟩
  · rw [Dataset.ofRows_points asDensity hne hw hfinite hpoints, ha]
  · simp only [Grid.placementOf, List.map_map, Function.comp_def, mul_one]

end Agree

omit [LinearOrder α] [GeneralizedBooleanAlgebra B] in
theorem map_mul_eq_self_iff {xs : List α} (h : ∀ x ∈ xs, x ≠ 0) (k : α) :
    xs.map (· * k) = xs ↔ xs = [] ∨ k = 1 := by
  constructor
  · intro heq
    rcases xs with _ | ⟨x, xs⟩
    · exact .inl rfl
    · have hx := (List.cons.inj heq).1
      exact .inr ((mul_eq_left₀ (h x List.mem_cons_self)).mp hx)
  · rintro (rfl | rfl)
    · rfl
    · simp

/-- A shape that contains a row is allocated by this row to the cells in which the row is located. The
weights are the fractions if and only if there are no such cells, or the row is an area, or none of its
points is empty; otherwise they are greater, as the fractions count empty points, too. -/
theorem allocate_row_eq_locate_iff [IsStrictOrderedRing α] [Tally α] [ExactTally α] [BEq α]
    [LawfulBEq α] (hs : Region.Spatial place) (hc : Region.Clipping ρ) (workers : Int)
    {shape : Shape ρ} {grid : Grid ρ α} (hgrid : grid.Accepted) {q : ρ}
    (hq : Region.dimension q = 2 ∧ 0 < Region.measure 2 q ∨
      Region.dimension q = 0 ∧ ∀ p ∈ Region.parts q, Region.isPoint p = true)
    (asDensity : Bool) {w : α} (hw : 0 < w) (hfinite : Tally.isFinite w = true)
    (hcovers : Region.covers shape.footprint q = true) :
    ∃ a p, allocate workers shape grid (Dataset.ofRows asDensity [(q, w)]) = .ok a ∧
      grid.locate q = .ok p ∧ a.cells.map (·.place) = p.cells ∧
      (a.cells.map (·.weight) = p.fractions ↔ p.cells = [] ∨ Region.dimension q = 2 ∨
        ∀ r ∈ Region.parts q, Region.isEmpty r = false) ∧
      (Region.dimension q = 0 → a.cells.map (·.weight) = p.fractions.map
        (· * ((Region.parts q).length / (Region.filledParts q).length : α))) := by
  have hne : Region.isEmpty q = false := ((hs.covers_iff _ _).mp hcovers).1
  rcases hq with ⟨harea, hpos⟩ | ⟨hpoints, hparts⟩
  · obtain ⟨a, p, ha, hp, hplaces, hweights⟩ :=
      area_agrees hs hc hne hw hfinite hcovers workers asDensity harea hpos
    exact ⟨a, p, ha, hp, hplaces, iff_of_true hweights (.inr (.inl harea)), fun hother => by omega⟩
  · obtain ⟨a, p, ha, hp, hplacement, hplaces, hweights⟩ :=
      points_agree hs hc hne hw hfinite hcovers workers asDensity hgrid hpoints hparts
    refine ⟨a, p, ha, hp, hplaces, ?_, fun _ => hweights⟩
    have hpositive : ∀ x ∈ p.fractions, x ≠ 0 := by
      rw [hplacement]
      refine List.forall_mem_map.mpr fun c hc => ?_
      rw [mul_one]
      exact (Grid.mem_listed.mp hc).2.ne'
    have hnone : p.fractions = [] ↔ p.cells = [] := by
      simp only [hplacement, Grid.placementOf, List.map_eq_nil_iff]
    have hdim : ¬ Region.dimension q = 2 := by omega
    rw [hweights, map_mul_eq_self_iff hpositive, hnone, length_div_filledParts_eq_one_iff hs hne,
      or_iff_right hdim]

open Mosaic in
/-- The corner of four squares weighs a quarter in each. -/
theorem allocate_row_corner :
    ∃ a p, allocate 2 (shape (rectangle 0 0 2 2)) (grid 2 2)
        (Dataset.ofRows true [(rectangle 1 1 1 1, 3)]) = .ok a ∧
      (grid 2 2).locate (rectangle 1 1 1 1) = .ok p ∧ a.cells.map (·.place) = p.cells ∧
      a.cells.map (·.weight) = p.fractions ∧ p.cells = [(0, 0), (0, 1), (1, 0), (1, 1)] ∧
      p.fractions = [1 / 4, 1 / 4, 1 / 4, 1 / 4] := by
  have hgrid : (grid 2 2).Accepted := ⟨.known .lonLat, rfl⟩
  have hcovers : Region.covers (shape (rectangle 0 0 2 2)).footprint (rectangle 1 1 1 1) = true := by
    decide +kernel
  obtain ⟨a, p, ha, hp, hplaces, hiff, -⟩ := allocate_row_eq_locate_iff spatial clipping 2 hgrid
    (.inr ⟨rfl, by decide +kernel⟩) true (w := 3) (by norm_num) rfl hcovers
  have hlocate := Grid.locate_points spatial hgrid (rfl : Region.dimension (rectangle 1 1 1 1) = 0)
  have hlisted : Grid.listed (grid 2 2).cells
      ((grid 2 2).pointShare (Grid.pointsOf (rectangle 1 1 1 1))) = (grid 2 2).cells := by
    rw [Grid.listed, List.filter_eq_self.mpr (by decide +kernel),
      List.mergeSort_of_pairwise (by decide +kernel)]
  refine ⟨a, p, ha, hp, hplaces, hiff.mpr (.inr (.inr (by decide +kernel))), ?_⟩
  rw [← Except.ok.inj (hlocate.symm.trans hp), Grid.placementOf, hlisted]
  decide +kernel

open Mosaic in
/-- A point is allocated as a whole to the only cell. Taken together with an empty point, it is located
there by half. -/
theorem allocate_row_ne_locate :
    let g := stack [(⟨[rectangle 0 0 1 1]⟩ : Cluster)]
    let q : Cluster := ⟨[⟨∅⟩, rectangle 0 0 0 0]⟩
    g.Accepted ∧ Region.dimension q = 0 ∧ (∀ r ∈ Region.parts q, Region.isPoint r = true) ∧
      Region.covers g.extent q = true ∧
      ∃ a p, allocate 2 ⟨"S", g.extent, none⟩ g (Dataset.ofRows true [(q, 1)]) = .ok a ∧
        g.locate q = .ok p ∧ a.cells.map (·.weight) = [1] ∧ p.fractions = [1 / 2] ∧
        p.covered = false := by
  intro g q
  have hgrid : g.Accepted := ⟨.known .lonLat, rfl⟩
  have hparts : ∀ r ∈ Region.parts q, Region.isPoint r = true := by decide +kernel
  have hcovers : Region.covers (Shape.mk "S" g.extent none).footprint q = true := by decide +kernel
  obtain ⟨a, p, ha, hp, hplacement, -, hweights⟩ := points_agree Cluster.spatial Cluster.clipping
    (by decide +kernel) (one_pos : (0 : ℚ) < 1) rfl hcovers 2 true hgrid rfl hparts
  have hfractions : p.fractions = [1 / 2] := by
    rw [hplacement]
    decide +kernel
  refine ⟨hgrid, rfl, hparts, hcovers, a, p, ha, hp, ?_, hfractions, ?_⟩
  · rw [hweights, hfractions]
    decide +kernel
  · rw [← Bool.not_eq_true, hplacement, Grid.covered_placementOf, ← hplacement, hfractions]
    norm_num

end Engine

end Gridding
