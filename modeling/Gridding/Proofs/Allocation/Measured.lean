import Gridding.Proofs.Allocation.Exact
import Gridding.Proofs.Region.Content

/-!
# Allocation of measured places

Where the granules of a dataset are measured by contents of the places they take up, an allocation
always exists. Its total weight is the weight of the dataset within the shape, and its weights add up
to what the clips are counted as over that.
-/

namespace Gridding

variable {ρ α ε B : Type} [Region ρ α ε]

section Gauged

variable [GeneralizedBooleanAlgebra B] [Field α] [LinearOrder α] {place interior : ρ → B}
  {μ : Int → B → α} {data : Dataset ρ α}

/-- The parts of all granules are measured by contents of places, in the dimension of the dataset. -/
def Dataset.IsGauged (place : ρ → B) (μ : Int → B → α) (data : Dataset ρ α) : Prop :=
  ∀ g ∈ data.granules, Region.Gauged place (μ data.dimension) data.dimension g.footprint

theorem Region.Measured.isGauged (hm : Region.Measured place μ)
    (hdim : ∀ g ∈ data.granules, Region.dimension g.footprint ≤ data.dimension) :
    data.IsGauged place μ :=
  fun g hg => hm.gauged (hdim g hg)

theorem Region.Areas.isGauged (ha : Region.Areas place interior (μ 2)) (hdata : data.dimension = 2) :
    data.IsGauged place μ := by
  intro g _
  rw [hdata]
  exact ha.gauged g.footprint

end Gauged

namespace Engine

section Clips

variable [Field α] {part : ρ → ρ → ρ}

/-- The clip of a granule, unless it is empty. -/
def clipWith (part : ρ → ρ → ρ) (shape : Shape ρ) (dim : Int) (g : Granule ρ α) :
    Option (Clip ρ α) :=
  let p := part g.footprint shape.footprint
  if Region.isEmpty p then none else some ⟨⟨p, g.weight⟩, g.weight * Region.measure dim p⟩

theorem of_clipWith {shape : Shape ρ} {dim : Int} {g : Granule ρ α} {c : Clip ρ α}
    (h : clipWith part shape dim g = some c) :
    c = ⟨⟨part g.footprint shape.footprint, g.weight⟩,
      g.weight * Region.measure dim (part g.footprint shape.footprint)⟩ := by
  dsimp only [clipWith] at h
  split at h
  · cases h
  · exact (Option.some.inj h).symm

/-- A sum over the clips is a sum over the granules, if it has nothing for an empty clip. -/
theorem sum_clipWith (shape : Shape ρ) (dim : Int) (gs : List (Granule ρ α)) (f : Clip ρ α → α)
    (k : Granule ρ α → α)
    (hf : ∀ g ∈ gs, f ⟨⟨part g.footprint shape.footprint, g.weight⟩,
      g.weight * Region.measure dim (part g.footprint shape.footprint)⟩ = k g)
    (hk : ∀ g ∈ gs, Region.isEmpty (part g.footprint shape.footprint) = true → k g = 0) :
    ((gs.filterMap (clipWith part shape dim)).map f).sum = (gs.map k).sum := by
  rw [List.map_filterMap, sum_filterMap]
  refine congrArg List.sum (List.map_congr_left fun g hg => ?_)
  dsimp only [clipWith]
  split
  · rename_i hempty
    exact (hk g hg hempty).symm
  · exact hf g hg

theorem clipsOfAll_eq (hpart : ∀ a b, Region.meet a b = .ok (part a b)) (shape : Shape ρ)
    (data : Dataset ρ α) :
    clipsOfAll (ε := ε) shape data =
      .ok (data.granules.filterMap (clipWith part shape data.dimension)) := by
  have hclip (g : Granule ρ α) :
      clip (ε := ε) shape data.dimension g = .ok (clipWith part shape data.dimension g) := by
    rw [clip, Fault.meet, hpart]
    simp only [Except.mapError, bind, Except.bind, pure, Except.pure, clipWith]
  rw [clipsOfAll, (mapM_congr fun g _ => hclip g).trans (List.mapM_pure (m := Except (Fault ε)))]
  change Except.ok ((data.granules.map _).filterMap id) = _
  rw [List.filterMap_map]
  rfl

end Clips

section Cells

variable [Field α] [LinearOrder α] {part : ρ → ρ → ρ}

/-- The overlap of a cell with a region, if it is positive. -/
def overlapWith (part : ρ → ρ → ρ) (dim : Int) (cell : Cell ρ α) (r : ρ) : Option α :=
  let p := part r cell.footprint
  if !Region.isEmpty p && decide (0 < Region.measure dim p) then some (Region.measure dim p) else none

theorem overlapWith_nonneg (dim : Int) (cell : Cell ρ α) (r : ρ) :
    0 ≤ (overlapWith part dim cell r).getD 0 := by
  dsimp only [overlapWith]
  split
  · rename_i h
    rw [Bool.and_eq_true, decide_eq_true_iff] at h
    exact h.2.le
  · exact le_refl 0

theorem overlapWith_eq_measure {dim : Int} {cell : Cell ρ α} {r : ρ}
    (hnonneg : 0 ≤ Region.measure dim (part r cell.footprint))
    (hempty : Region.isEmpty (part r cell.footprint) = true →
      Region.measure dim (part r cell.footprint) = 0) :
    (overlapWith part dim cell r).getD 0 = Region.measure dim (part r cell.footprint) := by
  dsimp only [overlapWith]
  split
  · rfl
  · rename_i hnone
    cases he : Region.isEmpty (part r cell.footprint) with
    | true => exact (hempty he).symm
    | false =>
      rw [he] at hnone
      simp only [Bool.not_false, Bool.true_and, decide_eq_true_eq, not_lt] at hnone
      exact le_antisymm hnonneg hnone

variable (hpart : ∀ a b, Region.meet a b = .ok (part a b))

include hpart

theorem table_eq (dim : Int) (clips : List (Clip ρ α)) (cells : List (Cell ρ α)) :
    table (ε := ε) dim clips cells =
      .ok (cells.map fun cell => (cell, clips.map fun c =>
        overlapWith part dim cell c.granule.footprint)) := by
  refine (mapM_congr fun cell _ => ?_).trans (List.mapM_pure (m := Except (Fault ε)))
  have hoverlap (c : Clip ρ α) :
      overlap (ε := ε) dim cell c = .ok (overlapWith part dim cell c.granule.footprint) := by
    rw [overlap, Fault.meet, hpart]
    simp only [Except.mapError, bind, Except.bind, pure, Except.pure, overlapWith]
  rw [(mapM_congr fun c _ => hoverlap c).trans (List.mapM_pure (m := Except (Fault ε)))]
  rfl

theorem exists_covers (grid : Grid ρ α) [Tally α] (r : ρ) :
    ∃ covered, grid.covers (ε := ε) r = .ok covered := by
  unfold Grid.covers
  simp only [Fault.meet, hpart]
  split
  · exact ⟨_, rfl⟩
  · split <;> exact ⟨_, rfl⟩

theorem survey_eq [Tally α] [ExactTally α] [BEq α] [LawfulBEq α] (shape : Shape ρ)
    (grid : Grid ρ α) (data : Dataset ρ α) {clips : List (Clip ρ α)}
    (hclips : clips = data.granules.filterMap (clipWith part shape data.dimension)) :
    ∃ s, survey (ε := ε) shape grid data = .ok s ∧
      s.totalWeight = (clips.map (·.contribution)).sum ∧
      (s.totalWeight ≠ 0 → s.weights = grid.cells.map fun cell => (cell, exactWeight data.dimension
        clips s.totalWeight grid.cells (fun d c => (overlapWith part data.dimension d
          c.granule.footprint).getD 0) cell)) := by
  obtain ⟨covered, hcovered⟩ := exists_covers hpart grid shape.footprint
  unfold survey
  rw [hcovered, clipsOfAll_eq hpart, ← hclips]
  simp only [bind, Except.bind, add_eq_sum]
  split
  · rename_i hzero
    exact ⟨_, rfl, (beq_iff_eq.mp hzero).symm, fun hne => absurd rfl hne⟩
  · rw [table_eq hpart]
    simp only [weigh_eq]
    exact ⟨_, rfl, rfl, fun _ => rfl⟩

/-- An allocation lists the cells whose exact weight is positive. -/
theorem exists_allocate [IsStrictOrderedRing α] [Region.Lossless ρ] [Tally α] [ExactTally α] [BEq α]
    [LawfulBEq α] (workers : Int) (shape : Shape ρ) (grid : Grid ρ α) (data : Dataset ρ α)
    {clips : List (Clip ρ α)}
    (hclips : clips = data.granules.filterMap (clipWith part shape data.dimension)) :
    ∃ a, allocate (ε := ε) workers shape grid data = .ok a ∧
      a.totalWeight = (clips.map (·.contribution)).sum ∧
      (∀ c ∈ a.cells, 0 < c.weight) ∧
      (a.totalWeight ≠ 0 → a.cells = ((grid.cells.map fun cell => (cell, exactWeight data.dimension
        clips a.totalWeight grid.cells (fun d c => (overlapWith part data.dimension d
          c.granule.footprint).getD 0) cell)).filterMap positive).mergeSort Cell.precedes) := by
  obtain ⟨s, hs, htotal, hweights⟩ := survey_eq hpart shape grid data hclips
  obtain ⟨a, ha, rfl⟩ :=
    (sequential_agree_survey (lt_irrefl (0 : α)) shape grid data).exists_ok hs
  refine ⟨_, ((allocate_agree workers shape grid data).ok_iff _).mpr ha, htotal, ?_, ?_⟩
  · intro c hc
    obtain ⟨w, -, hw⟩ := List.mem_filterMap.mp (List.mem_mergeSort.mp hc)
    obtain ⟨hpos, rfl⟩ := positive_eq_some_iff.mp hw
    exact hpos
  · intro hne
    dsimp only
    rw [hweights hne]

end Cells

section Measured

variable [GeneralizedBooleanAlgebra B] [Field α] {place : ρ → B} {μ : Int → B → α}

/-- The weight of a dataset within a place. -/
def weightWithin (place : ρ → B) (μ : Int → B → α) (data : Dataset ρ α) (x : B) : α :=
  (data.granules.map fun g => g.weight * μ data.dimension (place g.footprint ⊓ x)).sum

/-- The place of the clip of a granule. -/
def clipPlace (place : ρ → B) (shape : Shape ρ) (g : Granule ρ α) : B :=
  place g.footprint ⊓ place shape.footprint

theorem weightWithin_inf (data : Dataset ρ α) (shape : Shape ρ) (x : B) :
    weightWithin place μ data (place shape.footprint ⊓ x) =
      (data.granules.map fun g => g.weight * μ data.dimension (clipPlace place shape g ⊓ x)).sum :=
  congrArg List.sum (List.map_congr_left fun g _ => by rw [clipPlace, inf_assoc])

variable [LinearOrder α]

/-- What is counted of a granule: the sum of the parts in the cells of its clip, and for a line or a
point no more than the clip. -/
def countedOf (place : ρ → B) (μ : Int → B → α) (shape : Shape ρ) (grid : Grid ρ α) (dim : Int)
    (g : Granule ρ α) : α :=
  counted dim (μ dim (clipPlace place shape g))
    (grid.cells.map fun c => μ dim (clipPlace place shape g ⊓ place c.footprint)).sum

variable [IsStrictOrderedRing α] (hp : Region.Placed place)

include hp

theorem overlapWith_eq {part : ρ → ρ → ρ} (hpart : ∀ a b, Region.meet a b = .ok (part a b))
    {dim : Int} {r : ρ} (hr : Region.Gauged place (μ dim) dim r) (cell : Cell ρ α) :
    (overlapWith part dim cell r).getD 0 = μ dim (place r ⊓ place cell.footprint) := by
  have hpiece := hr.clip hp (hpart r cell.footprint)
  rw [← hr.measure_of_meet hp (hpart r cell.footprint)]
  refine overlapWith_eq_measure ?_ (hpiece.measure_of_isEmpty hp)
  rw [hpiece.measure_eq _ le_rfl]
  exact hpiece.nonneg

omit hp in
theorem weightWithin_nonneg {data : Dataset ρ α} (hdata : data.IsGauged place μ)
    (hweight : ∀ g ∈ data.granules, 0 ≤ g.weight) (x : B) : 0 ≤ weightWithin place μ data x := by
  refine List.sum_nonneg fun y hy => ?_
  obtain ⟨g, hg, rfl⟩ := List.mem_map.mp hy
  exact mul_nonneg (hweight g hg) ((hdata g hg).isContent.nonneg x)

theorem countedOf_of_isEmpty {shape : Shape ρ} {grid : Grid ρ α} {dim : Int} {g : Granule ρ α}
    {p : ρ} (hg : Region.Gauged place (μ dim) dim p)
    (hmeet : Region.meet g.footprint shape.footprint = .ok p) (hempty : Region.isEmpty p = true) :
    countedOf place μ shape grid dim g = 0 := by
  have hbot := hg.isContent.bot
  rw [inf_bot_eq] at hbot
  have hplace := hp.place_of_meet hmeet
  rw [(hp.isEmpty_iff p).mp hempty] at hplace
  have hsum : (grid.cells.map fun c => μ dim (⊥ ⊓ place c.footprint)).sum = 0 := by
    simp [hbot]
  rw [countedOf, clipPlace, ← hplace, hsum, hbot, counted_zero]

section Clips

variable {part : ρ → ρ → ρ} (hpart : ∀ a b, Region.meet a b = .ok (part a b)) (shape : Shape ρ)
  {data : Dataset ρ α} (hdata : data.IsGauged place μ)

include hpart hdata

omit [IsStrictOrderedRing α] in
theorem clip_nonneg (hweight : ∀ g ∈ data.granules, 0 ≤ g.weight) {c : Clip ρ α}
    (hc : c ∈ data.granules.filterMap (clipWith part shape data.dimension)) :
    0 ≤ c.granule.weight ∧ 0 ≤ Region.measure data.dimension c.granule.footprint := by
  obtain ⟨g, hg, hgc⟩ := List.mem_filterMap.mp hc
  have hclip := (hdata g hg).clip hp (hpart g.footprint shape.footprint)
  rw [of_clipWith hgc]
  exact ⟨hweight g hg, hclip.nonneg.trans_eq (hclip.measure_eq _ le_rfl).symm⟩

theorem sum_contribution :
    ((data.granules.filterMap (clipWith part shape data.dimension)).map (·.contribution)).sum =
      weightWithin place μ data (place shape.footprint) := by
  refine sum_clipWith shape data.dimension data.granules _ _ (fun g hg => ?_) fun g hg he => ?_
  · rw [(hdata g hg).measure_of_meet hp (hpart _ _)]
  · rw [← (hdata g hg).measure_of_meet hp (hpart _ _),
      ((hdata g hg).clip hp (hpart _ _)).measure_of_isEmpty hp he, mul_zero]

theorem sum_counted (grid : Grid ρ α) :
    ((data.granules.filterMap (clipWith part shape data.dimension)).map fun c => c.granule.weight *
      counted data.dimension (Region.measure data.dimension c.granule.footprint)
        (grid.cells.map fun cell =>
          (overlapWith part data.dimension cell c.granule.footprint).getD 0).sum).sum =
      (data.granules.map fun g => g.weight * countedOf place μ shape grid data.dimension g).sum := by
  refine sum_clipWith shape data.dimension data.granules _ _ (fun g hg => ?_) fun g hg he => ?_
  · have hclip := (hdata g hg).clip hp (hpart g.footprint shape.footprint)
    simp only [overlapWith_eq hp hpart hclip, hp.place_of_meet (hpart g.footprint _),
      (hdata g hg).measure_of_meet hp (hpart _ _)]
    rfl
  · rw [countedOf_of_isEmpty hp ((hdata g hg).clip hp (hpart _ _)) (hpart _ _) he, mul_zero]

end Clips

/-- An allocation exists, and what its weights add up to unless nothing lies within the shape. -/
theorem exists_allocation [Tally α] [ExactTally α] [BEq α] [LawfulBEq α] (workers : Int)
    (shape : Shape ρ) (grid : Grid ρ α) {data : Dataset ρ α} (hdata : data.IsGauged place μ)
    (hweight : ∀ g ∈ data.granules, 0 ≤ g.weight) :
    ∃ a, allocate workers shape grid data = .ok a ∧
      a.totalWeight = weightWithin place μ data (place shape.footprint) ∧
      (∀ c ∈ a.cells, 0 < c.weight) ∧
      (a.totalWeight ≠ 0 → a.total = .ok ((data.granules.map fun g => g.weight *
        countedOf place μ shape grid data.dimension g).sum / a.totalWeight)) := by
  choose part hpart using fun a b => (hp.meet_place a b).imp fun p hmeet => hmeet.1
  have := hp.lossless
  obtain ⟨a, ha, hatotal, hpos, hcells⟩ := exists_allocate hpart workers shape grid data rfl
  have htotal := hatotal.trans (sum_contribution hp hpart shape hdata)
  refine ⟨a, ha, htotal, hpos, fun hne => ?_⟩
  have hsum (f : Cell ρ α → α) :
      (grid.cells.map fun cell => (cell, f cell)).map (·.2) = grid.cells.map f := by
    rw [List.map_map]
    rfl
  have hclip (c : Clip ρ α) := clip_nonneg hp hpart shape hdata hweight (c := c)
  have hamount (cell : Cell ρ α) (c : Clip ρ α) :
      0 ≤ (overlapWith part data.dimension cell c.granule.footprint).getD 0 :=
    overlapWith_nonneg data.dimension cell c.granule.footprint
  rw [Allocation.total, hcells hne, sum_listed, hsum, sum_exactWeight,
    sum_counted hp hpart shape hdata]
  · exact fun c hc => (hclip c hc).2
  · exact hamount
  · have hnonneg := weightWithin_nonneg hdata hweight (place shape.footprint)
    intro w hw
    obtain ⟨cell, -, rfl⟩ := List.mem_map.mp hw
    exact exactWeight_nonneg (fun c hc => (hclip c hc).1) (fun c hc => (hclip c hc).2) hamount
      (hnonneg.trans_eq htotal.symm) cell

end Measured

end Engine

end Gridding
