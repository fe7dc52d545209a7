import Gridding.Proofs.Allocation.Measured
import Gridding.Proofs.Region.Mosaic
import Gridding.Proofs.Surrogate.Rows

/-!
# Restriction to a shape

A dataset may be made of all rows of a table, or only of those that meet the shape to be allocated.
The rows that are left out have no part in the shape, so the clips are the same; but the rows of the
greatest dimension may be among them, and then the others are no longer measured in it. So the two
datasets give the same allocation if and only if they are measured in the same dimension, or if there
is nothing to allocate even in the lesser one.
-/

namespace Gridding

variable {ρ α ε : Type}

/-- Intersections always exist, regions meet if theirs is not empty, and a region has no measure in a
dimension above its own, nor has a part of it. -/
structure Region.Graded (ρ : Type) {α ε : Type} [Region ρ α ε] [Zero α] : Prop where
  meet_ok (a b : ρ) : ∃ p, meet a b = .ok p ∧ (isEmpty p = false ↔ meets a b = true)
  meets_of_parts (a b p : ρ) : p ∈ parts a → meets p b = true → meets a b = true
  dimension_le (r : ρ) : dimension r ≤ 2
  dimension_meet_le (a b p : ρ) : meet a b = .ok p → dimension p ≤ dimension a
  measure_of_lt (d : Int) (r : ρ) : dimension r < d → d ≤ 2 → measure d r = 0

/-- Nothing counts as nothing: zeros do not count as positive, and sums of nothing but finite
multiples of zero are zero. -/
structure Tally.Null (α : Type) [Zero α] [Mul α] [LE α] [BEq α] [Tally α] : Prop where
  zero_le_zero : (0 : α) ≤ 0
  sum_eq_zero (xs : List α) : (∀ x ∈ xs, ∃ w : α, Tally.isFinite w = true ∧ x = w * 0) →
    ∃ z, Tally.sum xs = .ok z ∧ (z == 0) = true

variable [Region ρ α ε]

namespace Dataset

theorem max?_dimensions {rs : List ρ} (h : rs ≠ []) :
    (rs.map Region.dimension).max? = some (greatestDimension rs) := by
  cases rs with
  | nil => exact absurd rfl h
  | cons r rs => exact List.max?_cons'

theorem dimension_le_greatest {rs : List ρ} {r : ρ} (h : r ∈ rs) :
    Region.dimension r ≤ greatestDimension rs :=
  (List.max?_eq_some_iff.mp (max?_dimensions (List.ne_nil_of_mem h))).2 _ (List.mem_map_of_mem h)

/-- If there are regions, the greatest dimension is that of one of them. -/
theorem exists_greatest {rs : List ρ} (h : rs ≠ []) :
    ∃ r ∈ rs, Region.dimension r = greatestDimension rs :=
  List.mem_map.mp (List.max?_eq_some_iff.mp (max?_dimensions h)).1

end Dataset

open Engine

namespace Region.Graded

variable [Zero α] (hr : Region.Graded ρ) {shape : Shape ρ} {dim : Int}

include hr

/-- What clipping comes to for a granule that does not meet the shape, and for one that has no
measure. -/
theorem exists_clip [Mul α] (shape : Shape ρ) (dim : Int) (g : Granule ρ α) :
    ∃ c : Option (Clip ρ α), clip shape dim g = .ok c ∧
      (Region.meets g.footprint shape.footprint = false → c = none) ∧
      (Region.dimension g.footprint < dim → dim ≤ 2 →
        ∀ x ∈ c, x.contribution = g.weight * 0) := by
  obtain ⟨p, hp, hmeets⟩ := hr.meet_ok g.footprint shape.footprint
  refine ⟨_, by rw [clip, Fault.meet, hp]; rfl, fun haway => ?_, fun hlt hle x hx => ?_⟩
  · rw [← Bool.not_eq_true, ← hmeets, Bool.not_eq_false] at haway
    rw [if_pos haway]
  · split at hx
    · cases hx
    · cases hx
      have hpart := hr.dimension_meet_le _ _ _ hp
      exact congrArg (g.weight * ·) (hr.measure_of_lt dim p (hpart.trans_lt hlt) hle)

end Region.Graded

section Clips

variable [Mul α] {shape : Shape ρ} {f : Granule ρ α → Option (Clip ρ α)}

theorem Engine.clipsOf_eq (data : Dataset ρ α) (hf : ∀ g, clip shape data.dimension g = .ok (f g)) :
    clipsOf shape data = .ok ((data.granules.filter fun g =>
      Region.isNear g.footprint shape.footprint).filterMap f) := by
  rw [clipsOf, map_snd_near, (mapM_congr fun g _ => hf g).trans (List.mapM_pure (m := Except (Fault ε)))]
  change Except.ok (List.filterMap id _) = _
  rw [List.filterMap_map]
  rfl

end Clips

section Rows

variable [Zero α] [Div α] [LE α] [DecidableLE α] [BEq α] [Tally α] {asDensity : Bool} {dim : Int}
  {row : ρ × α} {g : Granule ρ α}

theorem Dataset.of_mem_rowGranules (h : g ∈ rowGranules dim asDensity row) :
    g.footprint = row.1 ∨ g.footprint ∈ Region.parts row.1 := by
  unfold rowGranules at h
  split at h
  case isTrue => cases h
  case isFalse =>
    split at h
    case isTrue =>
      obtain ⟨p, hp, rfl⟩ := List.mem_map.mp h
      exact .inr hp
    case isFalse =>
      dsimp only at h
      split at h
      · split at h
        · cases h
        · exact .inl (congrArg Granule.footprint (List.mem_singleton.mp h))
      · exact .inl (congrArg Granule.footprint (List.mem_singleton.mp h))

/-- A row of a lesser dimension gives no density, and otherwise itself. -/
theorem Dataset.of_mem_rowGranules_of_lt (hr : Region.Graded ρ) (hzero : (0 : α) ≤ 0)
    (hlt : Region.dimension row.1 < dim) (hle : dim ≤ 2) (h : g ∈ rowGranules dim asDensity row) :
    g = ⟨row.1, row.2⟩ ∧ Tally.isFinite row.2 = true := by
  unfold rowGranules at h
  split at h
  case isTrue => cases h
  case isFalse husable =>
    simp only [Bool.or_eq_true, not_or, Bool.not_eq_true', Bool.not_eq_false, Region.isEmpty,
      decide_eq_true_eq] at husable
    obtain ⟨⟨hempty, hfinite⟩, -⟩ := husable
    split at h
    case isTrue => omega
    case isFalse =>
      dsimp only at h
      rw [hr.measure_of_lt dim row.1 hlt hle, if_pos hzero] at h
      split at h
      · cases h
      · exact ⟨List.mem_singleton.mp h, hfinite⟩

theorem Dataset.meets_of_mem_rowGranules (hr : Region.Graded ρ) (h : g ∈ rowGranules dim asDensity row)
    {s : ρ} (hmeets : Region.meets g.footprint s = true) : Region.meets row.1 s = true := by
  rcases of_mem_rowGranules h with heq | hpart
  · rwa [heq] at hmeets
  · exact hr.meets_of_parts _ _ _ hpart hmeets

end Rows

theorem flatMap_filter_of_nil {β γ : Type} {p : β → Bool} {f : β → List γ} {bs : List β}
    (h : ∀ b ∈ bs, p b = false → f b = []) : (bs.filter p).flatMap f = bs.flatMap f := by
  induction bs with
  | nil => rfl
  | cons b bs ih =>
    have hrest := ih fun x hx => h x (List.mem_cons_of_mem b hx)
    rw [List.flatMap_cons, ← hrest]
    cases hb : p b with
    | true => rw [List.filter_cons_of_pos hb, List.flatMap_cons]
    | false => rw [List.filter_cons_of_neg (by simp [hb]), h b List.mem_cons_self hb, List.nil_append]

section Datasets

variable [Zero α] [One α] [Mul α] [Div α] [LT α] [LE α] [DecidableLT α] [DecidableLE α] [BEq α]
  [Tally α] (hr : Region.Graded ρ) (asDensity : Bool) (rows : List (ρ × α)) (shape : Shape ρ)
  (grid : Grid ρ α)

/-- The granules of rows, measured in a given dimension. -/
def Dataset.measuredIn (dim : Int) (asDensity : Bool) (rows : List (ρ × α)) : Dataset ρ α :=
  ⟨rows.flatMap (rowGranules dim asDensity), dim⟩

/-- An allocation depends on its dataset through the clips and the dimension. -/
theorem Engine.sequential_congr {data data' : Dataset ρ α} (hdim : data.dimension = data'.dimension)
    (hclips : clipsOf shape data = clipsOf shape data') :
    sequential shape grid data = sequential shape grid data' := by
  unfold sequential
  rw [hclips, hdim]

include hr

omit [One α] [LT α] [DecidableLT α] in
/-- Rows that do not meet the shape have no clips. -/
theorem Engine.clipsOf_filter_meets (dim : Int) :
    clipsOf shape (Dataset.measuredIn dim asDensity
        (rows.filter fun row => Region.meets row.1 shape.footprint)) =
      clipsOf shape (Dataset.measuredIn dim asDensity rows) := by
  choose f hf haway _ using hr.exists_clip (α := α) shape dim
  rw [clipsOf_eq (Dataset.measuredIn dim asDensity rows) hf,
    clipsOf_eq (Dataset.measuredIn dim asDensity _) hf]
  simp only [Dataset.measuredIn, List.filter_flatMap, List.filterMap_flatMap]
  refine congrArg Except.ok (flatMap_filter_of_nil fun row _ hrow => ?_)
  refine List.filterMap_eq_nil_iff.mpr fun g hg => haway g ?_
  rw [← Bool.not_eq_true] at hrow ⊢
  exact fun hmeets => hrow (Dataset.meets_of_mem_rowGranules hr (List.mem_of_mem_filter hg) hmeets)

/-- If no row that meets the shape has the dimension, there is nothing to allocate. -/
theorem Engine.sequential_eq_nothing (hz : Tally.Null α) {dim : Int} (hle : dim ≤ 2)
    (hlower : ∀ row ∈ rows, Region.meets row.1 shape.footprint = true →
      Region.dimension row.1 < dim) :
    sequential shape grid (Dataset.measuredIn dim asDensity rows) =
      (grid.covers shape.footprint).map fun _ => nothing shape grid := by
  choose f hf haway hsmall using hr.exists_clip (α := α) shape dim
  have hmultiples : ∀ c ∈ ((Dataset.measuredIn dim asDensity rows).granules.filter fun g =>
      Region.isNear g.footprint shape.footprint).filterMap f,
      ∃ w : α, Tally.isFinite w = true ∧ c.contribution = w * 0 := by
    intro c hc
    obtain ⟨g, hg, hgc⟩ := List.mem_filterMap.mp hc
    obtain ⟨row, hrow, hg⟩ := List.mem_flatMap.mp (List.mem_of_mem_filter hg)
    have hmeets : Region.meets g.footprint shape.footprint = true := by
      by_contra hnot
      rw [haway g (Bool.eq_false_of_not_eq_true hnot)] at hgc
      cases hgc
    have hlt := hlower row hrow (Dataset.meets_of_mem_rowGranules hr hg hmeets)
    obtain ⟨rfl, hfinite⟩ := Dataset.of_mem_rowGranules_of_lt hr hz.zero_le_zero hlt hle hg
    exact ⟨row.2, hfinite, hsmall _ hlt hle c hgc⟩
  obtain ⟨z, hsum, hzero⟩ := hz.sum_eq_zero _ (List.forall_mem_map.mpr hmultiples)
  rw [sequential, clipsOf_eq _ hf]
  cases grid.covers shape.footprint with
  | error e => rfl
  | ok covered =>
    simp only [bind, Except.bind, Fault.add, hsum, Except.mapError, hzero]
    rfl

end Datasets

section Restriction

variable [Zero α] [One α] [Add α] [Mul α] [Div α] [LT α] [LE α] [DecidableLT α] [DecidableLE α]
  [BEq α] [Tally α] [Amount α]

omit [Add α] [Amount α] in
/-- The allocation with a dataset of all rows: that with the rows which meet the shape if these have
the greatest dimension among them, and otherwise nothing. -/
theorem Engine.sequential_ofRows (hr : Region.Graded ρ) (hz : Tally.Null α) (asDensity : Bool)
    (rows : List (ρ × α)) (shape : Shape ρ) (grid : Grid ρ α) {whole clipped : Dataset ρ α}
    (hwhole : whole = Dataset.ofRows asDensity rows)
    (hclipped : clipped = Dataset.ofRows asDensity
      (rows.filter fun row => Region.meets row.1 shape.footprint)) :
    sequential shape grid whole =
      if clipped.dimension = whole.dimension then sequential shape grid clipped
      else (grid.covers shape.footprint).map fun _ => nothing shape grid := by
  subst hwhole hclipped
  split
  case isTrue hdim =>
    refine sequential_congr shape grid hdim.symm ?_
    have hclips := clipsOf_filter_meets hr asDensity rows shape
      (Dataset.greatestDimension (rows.map (·.1)))
    have hsame : Dataset.ofRows asDensity
        (rows.filter fun row => Region.meets row.1 shape.footprint) =
        Dataset.measuredIn (Dataset.greatestDimension (rows.map (·.1))) asDensity
          (rows.filter fun row => Region.meets row.1 shape.footprint) := by
      rw [← show _ = Dataset.greatestDimension (rows.map (·.1)) from hdim]
      rfl
    rw [hsame, hclips]
    rfl
  case isFalse hdim =>
    refine sequential_eq_nothing hr asDensity rows shape grid hz ?_ fun row hrow hmeets => ?_
    · rcases eq_or_ne (rows.map (·.1)) [] with hnil | hne
      · rw [hnil]
        exact le_rfl
      · obtain ⟨q, -, hq⟩ := Dataset.exists_greatest hne
        exact hq ▸ hr.dimension_le q
    · -- the greatest dimension of the rows that meet the shape is another one, so it is less
      have hmem : row ∈ rows.filter fun row => Region.meets row.1 shape.footprint :=
        List.mem_filter.mpr ⟨hrow, hmeets⟩
      obtain ⟨q, hq, hgreatest⟩ := Dataset.exists_greatest
        (List.ne_nil_of_mem (List.mem_map_of_mem (f := Prod.fst) hmem))
      obtain ⟨row', hrow', rfl⟩ := List.mem_map.mp hq
      have hle := Dataset.dimension_le_greatest
        (List.mem_map_of_mem (f := Prod.fst) (List.mem_of_mem_filter hrow'))
      have hrowle := Dataset.dimension_le_greatest (List.mem_map_of_mem (f := Prod.fst) hmem)
      rw [← hgreatest] at hrowle
      refine hrowle.trans_lt (lt_of_le_of_ne hle fun heq => hdim ?_)
      exact hgreatest.symm.trans heq

/-- Datasets of all rows and of those that meet the shape are built alike or fail alike. They give
the same allocation if and only if they have the same dimension or the rows that meet the shape give
nothing to allocate. -/
theorem Engine.restriction_transparent_iff (hr : Region.Graded ρ) (hz : Tally.Null α)
    (project : Table ρ → Except ProjectionError (Table ρ)) (t : Table ρ) (r : Table.Request ρ α)
    (shape : Shape ρ) (grid : Grid ρ α) (workers workers' : Int) :
    (∀ e, t.dataset project .ok { r with clipTo := some shape.footprint } = .error e ↔
      t.dataset project .ok { r with clipTo := none } = .error e) ∧
    ∀ whole clipped, t.dataset project .ok { r with clipTo := none } = .ok whole →
      t.dataset project .ok { r with clipTo := some shape.footprint } = .ok clipped →
      (Agree (· = ·) (allocate workers shape grid clipped) (allocate workers' shape grid whole) ↔
        clipped.dimension = whole.dimension ∨
          Agree (· = ·) (allocate workers shape grid clipped)
            ((grid.covers shape.footprint).map fun _ => nothing shape grid)) := by
  have hrows := Table.weightedRows_clipTo project t r shape.footprint
  unfold Table.dataset
  rw [hrows]
  cases t.weightedRows project .ok { r with clipTo := none } with
  | error e => exact ⟨fun _ => Iff.rfl, fun _ _ h => nomatch h⟩
  | ok rows =>
    refine ⟨fun _ => ⟨nofun, nofun⟩, ?_⟩
    rintro whole clipped ⟨⟩ ⟨⟩
    have hwhole := allocate_agree workers' shape grid (Dataset.ofRows r.asDensity rows)
    have hclipped := allocate_agree workers shape grid (Dataset.ofRows r.asDensity
      (rows.filter fun row => Region.meets row.1 shape.footprint))
    rw [sequential_ofRows hr hz r.asDensity rows shape grid rfl rfl] at hwhole
    split at hwhole
    case isTrue hdim => exact iff_of_true (hclipped.trans_eq hwhole.symm) (.inl hdim)
    case isFalse hdim =>
      rw [or_iff_right hdim]
      exact ⟨fun h => h.trans_eq hwhole, fun h => h.trans_eq hwhole.symm⟩

end Restriction

/-! ## Tables of mosaics -/

theorem Mosaic.pieceDimension_le {m : Mosaic} {p : ℤ × ℤ} (hp : p ∈ m.pieces) :
    pieceDimension p ≤ m.dimension := by
  have hsome (k : ℤ) (hk : pieceDimension p = k) : ∃ q ∈ m.pieces, pieceDimension q = k := ⟨p, hp, hk⟩
  have hne : m.pieces.Nonempty := ⟨p, hp⟩
  have hcases : pieceDimension p = 0 ∨ pieceDimension p = 1 ∨ pieceDimension p = 2 := by
    unfold pieceDimension
    omega
  unfold dimension
  rcases hcases with h | h | h
  · rw [h]
    split_ifs <;> omega
  · rw [h, if_pos (hsome 1 h)]
    split_ifs <;> omega
  · rw [h, if_pos (hsome 2 h)]

theorem Mosaic.graded : Region.Graded Mosaic where
  meet_ok a b := by
    refine ⟨_, rfl, ?_⟩
    rw [isEmpty_eq_false_iff]
    exact decide_eq_true_iff.symm
  meets_of_parts a b p hp h := by
    obtain rfl := List.mem_singleton.mp hp
    exact h
  dimension_le := planar.dimension_le
  dimension_meet_le a b p hp := by
    cases hp
    exact dimension_mono Finset.inter_subset_left
  measure_of_lt d m hlt _ := by
    have hnone : (m.pieces.filter fun p => pieceDimension p = d) = ∅ := by
      refine Finset.filter_eq_empty_iff.mpr fun p hp hdim => ?_
      exact absurd (hdim ▸ pieceDimension_le hp) (not_le.mpr hlt)
    change Mosaic.measure d m = 0
    rw [Mosaic.measure, if_pos (le_of_lt hlt : m.dimension ≤ d), content, hnone]
    rfl

theorem Tally.null_rat : Tally.Null ℚ where
  zero_le_zero := le_rfl
  sum_eq_zero xs h := by
    have hzero : ∀ x ∈ xs, x = 0 := fun x hx => by
      obtain ⟨w, -, rfl⟩ := h x hx
      exact mul_zero w
    exact ⟨0, congrArg Except.ok (List.sum_eq_zero hzero), rfl⟩

/-- A square, a row without a region, an upright line, a square far away, and one of another use. -/
def Mosaic.estates : Table Mosaic :=
  ⟨[some (rectangle 0 0 1 1), none, some (rectangle 1 0 1 1), some (rectangle 5 5 6 6),
      some (rectangle 1 0 2 1)],
    [⟨"use", .integers, [.integer 1, .integer 1, .integer 1, .integer 1, .integer 2]⟩,
      ⟨"people", .integers, [.integer 6, .integer 4, .integer 3, .integer 8, .integer 5]⟩]⟩

/-- A square far away and an upright line. -/
def Mosaic.roadside : Table Mosaic := ⟨[some (rectangle 5 5 6 6), some (rectangle 2 0 2 1)], []⟩

open Mosaic in
theorem Engine.restriction_transparent_mixed : ∃ whole clipped : Dataset Mosaic ℚ,
    estates.dataset .ok .ok ⟨["people"], [2], some ⟨"use", true, ["1"]⟩, none, true⟩ = .ok whole ∧
    estates.dataset .ok .ok ⟨["people"], [2], some ⟨"use", true, ["1"]⟩,
      some (rectangle 0 0 2 1), true⟩ = .ok clipped ∧
    whole.granules.length = 2 ∧ clipped.granules.length = 1 ∧ clipped.dimension = whole.dimension ∧
    Agree (· = ·) (allocate 2 (shape (rectangle 0 0 2 1)) (grid 2 1) clipped)
      (allocate 3 (shape (rectangle 0 0 2 1)) (grid 2 1) whole) := by
  refine ⟨_, _, rfl, rfl, by decide +kernel, by decide +kernel, by decide +kernel, ?_⟩
  refine ((restriction_transparent_iff graded Tally.null_rat .ok estates
    ⟨["people"], [2], some ⟨"use", true, ["1"]⟩, none, true⟩ (shape (rectangle 0 0 2 1))
    (grid 2 1) 2 3).2 _ _ rfl rfl).mpr (.inl ?_)
  decide +kernel

open Mosaic in
/-- The line lies inside the shape and counts as long as the square is left out. -/
theorem Engine.restriction_not_transparent : ∃ (whole clipped : Dataset Mosaic ℚ)
    (a b : Allocation Mosaic ℚ),
    roadside.dataset .ok .ok ⟨[], [], none, none, true⟩ = .ok whole ∧
    roadside.dataset .ok .ok ⟨[], [], none, some (rectangle 1 0 3 1), true⟩ = .ok clipped ∧
    allocate 2 (shape (rectangle 1 0 3 1)) (grid 3 1) whole = .ok a ∧
    allocate 2 (shape (rectangle 1 0 3 1)) (grid 3 1) clipped = .ok b ∧
    a.totalWeight = 0 ∧ a.cells = [] ∧ b.totalWeight = 1 := by
  have hrows : roadside.weightedRows .ok .ok ⟨[], [], none, none, true⟩ =
      .ok [(rectangle 5 5 6 6, (1 : ℚ)), (rectangle 2 0 2 1, 1)] := rfl
  have hclipped : roadside.dataset .ok .ok ⟨[], [], none, some (rectangle 1 0 3 1), true⟩ =
      .ok (Dataset.ofRows true [(rectangle 2 0 2 1, (1 : ℚ))]) := rfl
  have hcovers : ∃ covered, (grid 3 1).covers (rectangle 1 0 3 1) = .ok covered :=
    exists_covers (fun _ _ => rfl) _ _
  obtain ⟨covered, hcovers⟩ := hcovers
  have hwhole := sequential_ofRows graded Tally.null_rat true
    [(rectangle 5 5 6 6, (1 : ℚ)), (rectangle 2 0 2 1, 1)] (shape (rectangle 1 0 3 1)) (grid 3 1)
    rfl rfl
  rw [if_neg (by decide +kernel), shape, hcovers] at hwhole
  have hdim : ∀ g ∈ (Dataset.ofRows true [(rectangle 2 0 2 1, (1 : ℚ))]).granules,
      Region.dimension g.footprint ≤ (Dataset.ofRows true [(rectangle 2 0 2 1, (1 : ℚ))]).dimension := by
    decide +kernel
  obtain ⟨b, hb, htotal, -⟩ := exists_allocation measured.toPlaced 2 (shape (rectangle 1 0 3 1))
    (grid 3 1) (measured.isGauged hdim) (by decide +kernel)
  refine ⟨_, _, _, b, congrArg _ hrows, hclipped,
    ((allocate_agree 2 _ _ _).ok_iff _).mpr hwhole, hb, rfl, rfl, htotal.trans ?_⟩
  decide +kernel

end Gridding
