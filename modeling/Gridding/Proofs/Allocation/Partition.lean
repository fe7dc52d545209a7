import Gridding.Proofs.Allocation.Restriction

/-!
# Partition among shapes

The density of a row is its weight over its whole area, whichever shape its granule is clipped to. So
a shape gets of every row the share of the area that lies within the shape, rows that do not meet the
shape having no such share. If shapes with disjoint interiors contain all rows, the shares of each row
add up to one, and the total weights of the shapes to the weights of the rows.
-/

namespace Gridding

variable {ρ α ε B : Type} [Region ρ α ε] [GeneralizedBooleanAlgebra B] [Field α] [LinearOrder α]
  {place interior : ρ → B} {area : B → α}

/-- Is a region an area of some size? -/
def Region.IsArea (r : ρ) : Prop := Region.dimension r = 2 ∧ 0 < Region.measure 2 r

omit [GeneralizedBooleanAlgebra B] in
theorem Region.IsArea.isEmpty_eq {r : ρ} (h : Region.IsArea r) : Region.isEmpty r = false := by
  rw [Region.isEmpty, h.1]
  rfl

namespace Region.Areas

variable (ha : Areas place interior area)

include ha

/-- Shapes with disjoint interiors that contain a region have in all its area in common with it. -/
theorem sum_inf_eq [IsStrictOrderedRing α] {n : ℕ} {s : Fin n → ρ}
    (hdisjoint : Pairwise fun i j => Disjoint (interior (s i)) (interior (s j))) {r : ρ}
    (hcover : place r ≤ cover (List.ofFn fun i => place (s i))) :
    ∑ i, area (place r ⊓ place (s i)) = measure 2 r := by
  have hnull : (List.ofFn fun i => place (s i)).Pairwise fun a b => area (place r ⊓ (a ⊓ b)) = 0 :=
    List.pairwise_ofFn.mpr fun i j hij => ha.null_inf (hdisjoint hij.ne) r
  have hsum := (ha.isContent r).sum_inf_eq hcover hnull
  rw [List.map_ofFn, List.sum_ofFn] at hsum
  exact hsum.trans (ha.measure_eq r).symm

/-- The shares of rows that such shapes get add up to the rows. -/
theorem sum_shares [IsStrictOrderedRing α] {n : ℕ} {s : Fin n → ρ}
    (hdisjoint : Pairwise fun i j => Disjoint (interior (s i)) (interior (s j))) {rows : List (ρ × α)}
    (hrows : ∀ row ∈ rows, IsArea row.1 ∧ place row.1 ≤ cover (List.ofFn fun i => place (s i))) :
    ∑ i, (rows.map fun row => row.2 / measure 2 row.1 * area (place row.1 ⊓ place (s i))).sum =
      (rows.map (·.2)).sum := by
  have hrow : ∀ row ∈ rows,
      ∑ i, row.2 / measure 2 row.1 * area (place row.1 ⊓ place (s i)) = row.2 := by
    intro row hmem
    obtain ⟨hrowarea, hcover⟩ := hrows row hmem
    rw [← Finset.mul_sum, ha.sum_inf_eq hdisjoint hcover, div_mul_cancel₀ _ hrowarea.2.ne']
  rw [← List.map_congr_left hrow]
  exact Multiset.sum_map_sum_map Finset.univ.val (rows : Multiset (ρ × α))

theorem inf_eq_zero_of_not_meets [IsStrictOrderedRing α] (hs : Spatial place) {a b : ρ}
    (h : meets a b = false) : area (place a ⊓ place b) = 0 := by
  have hdisjoint : Disjoint (place a) (place b) := by
    by_contra hmeets
    rw [(hs.meets_iff a b).mpr hmeets] at h
    cases h
  have hbot := (ha.isContent a).bot
  rwa [inf_bot_eq, ← hdisjoint.eq_bot] at hbot

end Region.Areas

/-! ## Rows that have an area -/

section Rows

variable [Tally α] [BEq α] [LawfulBEq α] (hfinite : ∀ w : α, Tally.isFinite w = true)

include hfinite

omit [GeneralizedBooleanAlgebra B] [LawfulBEq α] hfinite in
theorem Dataset.granules_ofRows (rows : List (ρ × α)) : (ofRows true rows).granules =
    rows.flatMap (rowGranules (greatestDimension (rows.map (·.1))) true) := rfl

omit [GeneralizedBooleanAlgebra B] in
theorem Dataset.rowGranules_area {row : ρ × α} (hrow : Region.IsArea row.1) :
    rowGranules 2 true row =
      if row.2 = 0 then [] else [⟨row.1, row.2 / Region.measure 2 row.1⟩] := by
  rw [rowGranules, hrow.isEmpty_eq, hfinite]
  simp [hrow.2.not_ge]

/-- A row without weight has no granule, and counts for nothing either way. -/
theorem Dataset.sum_rowGranules {row : ρ × α} (hrow : Region.IsArea row.1) (f : ρ → α) :
    ((rowGranules 2 true row).map fun g => g.weight * f g.footprint).sum =
      row.2 / Region.measure 2 row.1 * f row.1 := by
  rw [rowGranules_area hfinite hrow]
  split
  case isTrue hzero => simp [hzero]
  case isFalse => simp

omit [GeneralizedBooleanAlgebra B] [LawfulBEq α] hfinite in
theorem Dataset.dimension_ofRows_area {rows : List (ρ × α)}
    (hrows : ∀ row ∈ rows, Region.IsArea row.1) : (ofRows true rows).dimension = 2 := by
  rcases eq_or_ne (rows.map (·.1)) [] with hnil | hne
  · rw [ofRows, hnil]
    rfl
  · obtain ⟨q, hq, hgreatest⟩ := exists_greatest hne
    obtain ⟨row, hrow, rfl⟩ := List.mem_map.mp hq
    exact hgreatest.symm.trans (hrows row hrow).1

variable [IsStrictOrderedRing α] [ExactTally α] (hs : Region.Spatial place)
  (ha : Region.Areas place interior area)

include hs ha

/-- What a shape gets of rows that have an area. -/
theorem Engine.exists_allocate_areas {rows : List (ρ × α)} (hrows : ∀ row ∈ rows, Region.IsArea row.1)
    (workers : Int) (shape : Shape ρ) (grid : Grid ρ α) :
    ∃ a, allocate workers shape grid (Dataset.ofRows true rows) = .ok a ∧
      a.totalWeight = (rows.map fun row => row.2 / Region.measure 2 row.1 *
        area (place row.1 ⊓ place shape.footprint)).sum := by
  choose part hpart using fun a b => (hs.meet_place a b).imp fun p hp => hp.1
  have := hs.lossless
  obtain ⟨a, hallocate, htotal, -⟩ := exists_allocate hpart workers shape grid
    (Dataset.ofRows true rows) rfl
  have hdim := Dataset.dimension_ofRows_area hrows
  have hmeasure (r : ρ) : Region.measure 2 (part r shape.footprint) =
      area (place r ⊓ place shape.footprint) := by
    rw [ha.measure_eq, hs.place_of_meet (hpart r _)]
  have hclips := sum_clipWith shape 2 (Dataset.ofRows true rows).granules (·.contribution)
    (fun g => g.weight * area (place g.footprint ⊓ place shape.footprint))
    (fun g _ => congrArg (g.weight * ·) (hmeasure g.footprint))
    (fun g _ hempty => by rw [← hmeasure, hs.measure_of_isEmpty 2 _ hempty, mul_zero])
  refine ⟨a, hallocate, ?_⟩
  -- the granules are those of one row after another
  rw [htotal, hdim, hclips, Dataset.granules_ofRows, show Dataset.greatestDimension _ = 2 from hdim,
    List.map_flatMap, sum_flatMap]
  exact congrArg List.sum (List.map_congr_left fun row hrow =>
    Dataset.sum_rowGranules hfinite (hrows row hrow) fun r => area (place r ⊓ place shape.footprint))

/-- Leaving out the rows that do not meet the shape changes nothing of what it gets. -/
theorem Engine.exists_allocate_meeting {rows : List (ρ × α)}
    (hrows : ∀ row ∈ rows, Region.IsArea row.1) (workers : Int) (shape : Shape ρ) (grid : Grid ρ α) :
    ∃ a, allocate workers shape grid (Dataset.ofRows true
        (rows.filter fun row => Region.meets row.1 shape.footprint)) = .ok a ∧
      a.totalWeight = (rows.map fun row => row.2 / Region.measure 2 row.1 *
        area (place row.1 ⊓ place shape.footprint)).sum := by
  obtain ⟨a, hallocate, htotal⟩ := exists_allocate_areas hfinite hs ha
    (fun row hrow => hrows row (List.mem_of_mem_filter hrow)) workers shape grid
  refine ⟨a, hallocate, htotal.trans ?_⟩
  rw [sum_filter]
  refine congrArg List.sum (List.map_congr_left fun row _ => ?_)
  split
  case isTrue => rfl
  case isFalse haway =>
    rw [ha.inf_eq_zero_of_not_meets hs (Bool.eq_false_of_not_eq_true haway), mul_zero]

end Rows

section Conservation

variable [IsStrictOrderedRing α] [Tally α] [ExactTally α] [BEq α] [LawfulBEq α] [Amount α]
  {project : Table ρ → Except ProjectionError (Table ρ)} {t kept : Table ρ} {names : List String}
  {factors : List α} {filter : Option RowFilter}

/-- If shapes with disjoint interiors contain all rows that pass the filter, each gets an allocation
on whatever grid, and their total weights add up to the weights of these rows. -/
theorem Engine.sum_totalWeight_eq (hs : Region.Spatial place) (ha : Region.Areas place interior area)
    (hfinite : ∀ w : α, Tally.isFinite w = true) (hfull : t.IsFull)
    (hkept : t.filtered filter = .ok kept) (hproject : project kept = .ok kept)
    (hnames : ∀ name ∈ names, ∃ c ∈ kept.columns, c.name = name)
    (hfactors : factors = [] ∨ factors.length = names.length)
    {n : ℕ} (shape : Fin n → Shape ρ) (grid : Fin n → Grid ρ α) (workers : Fin n → Int)
    (hrows : ∀ o ∈ kept.regions, ∃ r, o = some r ∧ Region.IsArea r ∧
      place r ≤ cover (List.ofFn fun i => place (shape i).footprint))
    (hdisjoint : Pairwise fun i j =>
      Disjoint (interior (shape i).footprint) (interior (shape j).footprint)) :
    ∃ (data : Fin n → Dataset ρ α) (a : Fin n → Allocation ρ α),
      (∀ i, t.dataset project .ok ⟨names, factors, filter, some (shape i).footprint, true⟩ =
          .ok (data i) ∧
        allocate (workers i) (shape i) (grid i) (data i) = .ok (a i)) ∧
      ∑ i, (a i).totalWeight = ∑ i ∈ Finset.range kept.size, weightInRow kept.columns names factors i := by
  have hkeptfull := Table.isFull_filtered hfull hkept
  have hrow (r : ρ) (hr : some r ∈ kept.regions) :
      Region.IsArea r ∧ place r ≤ cover (List.ofFn fun i => place (shape i).footprint) := by
    obtain ⟨q, hq, h⟩ := hrows _ hr
    rwa [Option.some.inj hq]
  have hregions : ∀ o ∈ kept.regions, o.isSome = true := fun o ho =>
    Option.isSome_iff_exists.mpr ((hrows o ho).imp fun r hr => hr.1)
  have hweights := rowWeights_eq hkeptfull hnames hfactors
  set ws := (List.range kept.size).map (weightInRow kept.columns names factors) with hws
  have hweigh : kept.weigh names factors = .ok (kept.rows ws) := by
    rw [Table.weigh, hweights]
    rfl
  have hareas : ∀ row ∈ kept.rows ws, Region.IsArea row.1 ∧
      place row.1 ≤ cover (List.ofFn fun i => place (shape i).footprint) := fun row hmem =>
    hrow row.1 (Table.some_mem_of_mem_rows hmem)
  -- each shape by itself, in terms of all rows
  choose a hallocate htotal using fun i => exists_allocate_meeting hfinite hs ha
    (fun row hmem => (hareas row hmem).1) (workers i) (shape i) (grid i)
  refine ⟨_, a, fun i => ⟨Table.dataset_clipTo hkept hproject hkeptfull
    (fun q hq => (hrow q hq).1.isEmpty_eq) hweigh _ true, hallocate i⟩, ?_⟩
  calc ∑ i, (a i).totalWeight
      = ∑ i, ((kept.rows ws).map fun row => row.2 / Region.measure 2 row.1 *
          area (place row.1 ⊓ place (shape i).footprint)).sum := Finset.sum_congr rfl fun i _ => htotal i
    _ = ((kept.rows ws).map (·.2)).sum := ha.sum_shares hdisjoint hareas
    _ = ws.sum := Table.sum_rows hregions (by rw [hws, List.length_map, List.length_range])
    _ = ∑ i ∈ Finset.range kept.size, weightInRow kept.columns names factors i := rfl

end Conservation

/-! ## Tables of mosaics -/

/-- Two plots that overlap, one of another use between them, and one without people and cars. -/
def Mosaic.plots : Table Mosaic :=
  ⟨[some (rectangle 0 0 2 2), some (rectangle 0 0 4 2), some (rectangle 1 0 4 1),
      some (rectangle 3 1 4 2)],
    [⟨"use", .integers, [.integer 1, .integer 2, .integer 1, .integer 1]⟩,
      ⟨"people", .integers, [.integer 6, .integer 9, .integer 5, .integer 0]⟩,
      ⟨"cars", .integers, [.integer 1, .integer 1, .integer 3, .integer 0]⟩]⟩

/-- Three strips side by side. -/
def Mosaic.strips : Fin 3 → Mosaic := ![rectangle 0 0 1 2, rectangle 1 0 3 2, rectangle 3 0 4 2]

open Mosaic in
theorem Engine.sum_totalWeight_eq_strips :
    ∃ (data : Fin 3 → Dataset Mosaic ℚ) (a : Fin 3 → Allocation Mosaic ℚ),
      (∀ i, plots.dataset .ok .ok
          ⟨["people", "cars"], [2, 3], some ⟨"use", true, ["1"]⟩, some (strips i), true⟩ = .ok (data i) ∧
        allocate 2 (shape (strips i)) (![grid 1 2, grid 3 3, stack [rectangle 3 0 4 1]] i) (data i) =
          .ok (a i)) ∧
      ∑ i, (a i).totalWeight = 34 := by
  have hkept : plots.filtered (some ⟨"use", true, ["1"]⟩) = .ok (plots.select [0, 2, 3]) := rfl
  have hnames : ∀ name ∈ ["people", "cars"], ∃ c ∈ (plots.select [0, 2, 3]).columns, c.name = name := by
    decide +kernel
  have hrows : ∀ o ∈ (plots.select [0, 2, 3]).regions, ∃ r, o = some r ∧ Region.IsArea r ∧
      r.pieces ≤ cover (List.ofFn fun i => (strips i).pieces) := by
    refine List.forall_mem_cons.mpr ⟨⟨_, rfl, ⟨rfl, by decide +kernel⟩, by decide +kernel⟩, ?_⟩
    refine List.forall_mem_cons.mpr ⟨⟨_, rfl, ⟨rfl, by decide +kernel⟩, by decide +kernel⟩, ?_⟩
    exact List.forall_mem_singleton.mpr ⟨_, rfl, ⟨rfl, by decide +kernel⟩, by decide +kernel⟩
  have hdisjoint : ∀ i j, i ≠ j → Disjoint (interior (strips i)) (interior (strips j)) := by
    decide +kernel
  obtain ⟨data, a, hallocate, hsum⟩ := sum_totalWeight_eq spatial (planar.areas measured)
    (fun _ => rfl) (show ∀ c ∈ plots.columns, c.values.length = 4 by decide +kernel) hkept rfl hnames
    (.inr rfl : ([2, 3] : List ℚ) = [] ∨ _) (fun i => shape (strips i))
    ![grid 1 2, grid 3 3, stack [rectangle 3 0 4 1]] (fun _ => 2) hrows hdisjoint
  exact ⟨data, a, hallocate, hsum.trans (by decide +kernel)⟩

end Gridding
