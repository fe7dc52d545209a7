import Gridding.Proofs.Allocation.Survey
import Gridding.Proofs.Numeric.Exact
import Gridding.Proofs.Numeric.Sums

/-!
# Allocation in exact arithmetic

With exact numbers every sum exists, and the weights of all cells add up to what all clips are
counted as over the total: an area is counted as the sum of its overlaps, a line or a point as no
more than its own size.
-/

namespace Gridding

variable {ρ α ε : Type}

namespace Engine

theorem add_eq_sum [Field α] [Tally α] [ExactTally α] (xs : List α) : Fault.add (ε := ε) xs = .ok xs.sum := by
  rw [Fault.add, ExactTally.sum_eq]
  rfl

section Sizes

variable [Field α] [LinearOrder α]

/-- What a clip of some size is counted as, its overlaps adding up to a sum. -/
def counted (dim : Int) (size sum : α) : α := if 2 ≤ dim then sum else min sum size

theorem counted_zero (dim : Int) : counted dim (0 : α) 0 = 0 := by
  unfold counted
  split
  · rfl
  · exact min_self 0

/-- The share of each overlap that is counted. -/
def shareOf (dim : Int) (size sum : α) : α :=
  if 2 ≤ dim then 1 else if 0 < sum then min (size / sum) 1 else 1

theorem shareOf_mul [IsStrictOrderedRing α] (dim : Int) {size sum : α} (hsize : 0 ≤ size)
    (hsum : 0 ≤ sum) : sum * shareOf dim size sum = counted dim size sum := by
  unfold shareOf counted
  split
  · exact mul_one sum
  · split
    · rename_i hpos
      rw [mul_min_of_nonneg _ _ hsum, mul_div_cancel₀ size hpos.ne', mul_one, min_comm]
    · rename_i hpos
      have hzero : sum = 0 := le_antisymm (not_lt.mp hpos) hsum
      rw [hzero, zero_mul, min_eq_left hsize]

theorem shareOf_nonneg [IsStrictOrderedRing α] (dim : Int) {size : α} (hsize : 0 ≤ size) (sum : α) :
    0 ≤ shareOf dim size sum := by
  unfold shareOf
  split
  · exact zero_le_one
  · split
    · rename_i hpos
      exact le_min (div_nonneg hsize hpos.le) zero_le_one
    · exact zero_le_one

variable [Tally α] [ExactTally α]

theorem share_eq [Region ρ α ε] (dim : Int) (c : Clip ρ α) (overlaps : List α) :
    share (ε := ε) dim c overlaps =
      .ok (shareOf dim (Region.measure dim c.granule.footprint) overlaps.sum) := by
  unfold share shareOf
  split
  · rfl
  · rw [add_eq_sum]
    simp only [bind, Except.bind, pure, Except.pure]
    split
    · congr 1
      split
      · rename_i h
        rw [min_eq_right h.le]
      · rename_i h
        rw [min_eq_left (not_lt.mp h)]
    · rfl

end Sizes

theorem getElem?_of_mem_indexed {β : Type} {bs : List β} {p : Nat × β} (h : p ∈ indexed bs) :
    bs[p.1]? = some p.2 := by
  obtain ⟨i, hi, rfl⟩ := List.mem_iff_getElem.mp h
  simp [indexed] at hi ⊢

theorem map_snd_indexed {β : Type} (bs : List β) : (indexed bs).map (·.2) = bs :=
  List.map_snd_zip (by simp)

/-- The weight of a cell, given the amounts of all overlaps. -/
def exactWeight [Field α] [LinearOrder α] [Region ρ α ε] (dim : Int) (clips : List (Clip ρ α))
    (total : α) (cells : List (Cell ρ α)) (amount : Cell ρ α → Clip ρ α → α) (cell : Cell ρ α) : α :=
  (clips.map fun c => c.granule.weight * amount cell c * shareOf dim
    (Region.measure dim c.granule.footprint) (cells.map fun d => amount d c).sum).sum / total

section Weigh

theorem rowWeight_eq [Field α] [Tally α] [ExactTally α] (clips : List (Clip ρ α)) (s : Clip ρ α → α) (total : α)
    (o : Clip ρ α → Option α) :
    rowWeight (ε := ε) clips (clips.map s) total (clips.map o) =
      .ok ((clips.map fun c => c.granule.weight * (o c).getD 0 * s c).sum / total) := by
  have hterms : (Striped.present (clips.zip (clips.map s)) (clips.map o)).map
      (fun e => e.1.1.granule.weight * e.2 * e.1.2) =
      clips.filterMap fun c => (o c).map fun v => c.granule.weight * v * s c := by
    rw [← List.map_prod_left_eq_zip, Striped.present_map, List.map_filterMap]
    simp only [Option.map_map]
    rfl
  have hsum : (clips.filterMap fun c => (o c).map fun v => c.granule.weight * v * s c).sum =
      (clips.map fun c => c.granule.weight * (o c).getD 0 * s c).sum := by
    rw [sum_filterMap]
    refine congrArg List.sum (List.map_congr_left fun c _ => ?_)
    cases o c <;> simp
  rw [rowWeight, hterms, add_eq_sum, hsum]
  split
  · rename_i hblank
    have hnone : ∀ c ∈ clips, o c = none := by
      intro c hc
      have h := List.filterMap_eq_nil_iff.mp (List.isEmpty_iff.mp hblank) (o c)
        (List.mem_map_of_mem hc)
      exact h
    have hzero : (clips.map fun c => c.granule.weight * (o c).getD 0 * s c).sum = 0 := by
      refine List.sum_eq_zero fun x hx => ?_
      obtain ⟨c, hc, rfl⟩ := List.mem_map.mp hx
      simp [hnone c hc]
    rw [hzero, zero_div]
  · rfl

variable [Field α] [LinearOrder α]

theorem weigh_eq [Tally α] [ExactTally α] [Region ρ α ε] (dim : Int) (clips : List (Clip ρ α)) (total : α)
    (cells : List (Cell ρ α)) (o : Cell ρ α → Clip ρ α → Option α) :
    weigh (ε := ε) dim clips total (cells.map fun cell => (cell, clips.map (o cell))) =
      .ok (cells.map fun cell =>
        (cell, exactWeight dim clips total cells (fun d c => (o d c).getD 0) cell)) := by
  have hshares : ((indexed clips).mapM fun p => share (ε := ε) dim p.2
      (column p.1 (cells.map fun cell => (cell, clips.map (o cell))))) =
      .ok (clips.map fun c => shareOf dim (Region.measure dim c.granule.footprint)
        (cells.map fun d => (o d c).getD 0).sum) := by
    rw [← map_snd_indexed clips, List.map_map, map_snd_indexed]
    refine (mapM_congr fun p hp => ?_).trans (List.mapM_pure (m := Except (Fault ε)))
    have hcolumn : column p.1 (cells.map fun cell => (cell, clips.map (o cell))) =
        cells.filterMap fun cell => o cell p.2 := by
      unfold column
      rw [List.filterMap_map]
      refine List.filterMap_congr fun cell _ => ?_
      simp [getElem?_of_mem_indexed hp]
    rw [hcolumn, share_eq, sum_filterMap]
    rfl
  unfold weigh
  rw [hshares]
  change (List.mapM _ (cells.map _) : Except (Fault ε) _) = _
  rw [List.mapM_map]
  refine (mapM_congr fun cell _ => ?_).trans (List.mapM_pure (m := Except (Fault ε)))
  simp only [Function.comp_apply]
  rw [rowWeight_eq]
  rfl

/-- The weights that are positive add up to as much as all weights. -/
theorem sum_positive {weights : List (Cell ρ α × α)} (h : ∀ w ∈ weights, 0 ≤ w.2) :
    ((weights.filterMap positive).map (·.weight)).sum = (weights.map (·.2)).sum := by
  induction weights with
  | nil => rfl
  | cons w weights ih =>
    obtain ⟨hw, hweights⟩ := List.forall_mem_cons.mp h
    rw [List.map_cons, List.sum_cons, ← ih hweights]
    by_cases hpos : 0 < w.2
    · rw [List.filterMap_cons_some (positive_eq_some_iff.mpr ⟨hpos, rfl⟩), List.map_cons,
        List.sum_cons]
      rfl
    · have hzero : w.2 = 0 := le_antisymm (not_lt.mp hpos) hw
      rw [List.filterMap_cons_none (positive_eq_none hpos), hzero, zero_add]

theorem sum_listed [Tally α] [ExactTally α] {weights : List (Cell ρ α × α)}
    (h : ∀ w ∈ weights, 0 ≤ w.2) :
    Tally.sum (((weights.filterMap positive).mergeSort Cell.precedes).map (·.weight)) =
      .ok (weights.map (·.2)).sum := by
  rw [ExactTally.sum_eq, ((List.mergeSort_perm _ _).map _).sum_eq, sum_positive h]

variable [IsStrictOrderedRing α] [Region ρ α ε] {dim : Int} {clips : List (Clip ρ α)} {total : α}
  {cells : List (Cell ρ α)} {amount : Cell ρ α → Clip ρ α → α}

theorem exactWeight_nonneg (hweight : ∀ c ∈ clips, 0 ≤ c.granule.weight)
    (hsize : ∀ c ∈ clips, 0 ≤ Region.measure dim c.granule.footprint)
    (hamount : ∀ cell c, 0 ≤ amount cell c) (htotal : 0 ≤ total) (cell : Cell ρ α) :
    0 ≤ exactWeight dim clips total cells amount cell := by
  refine div_nonneg (List.sum_nonneg fun x hx => ?_) htotal
  obtain ⟨c, hc, rfl⟩ := List.mem_map.mp hx
  exact mul_nonneg (mul_nonneg (hweight c hc) (hamount cell c)) (shareOf_nonneg dim (hsize c hc) _)

/-- The sum of the weights of all cells, clip by clip. -/
theorem sum_exactWeight (hsize : ∀ c ∈ clips, 0 ≤ Region.measure dim c.granule.footprint)
    (hamount : ∀ cell c, 0 ≤ amount cell c) :
    (cells.map (exactWeight dim clips total cells amount)).sum =
      (clips.map fun c => c.granule.weight * counted dim (Region.measure dim c.granule.footprint)
        (cells.map fun cell => amount cell c).sum).sum / total := by
  unfold exactWeight
  simp only [div_eq_mul_inv]
  rw [List.sum_map_mul_right, sum_map_comm]
  congr 2
  refine List.map_congr_left fun c hc => ?_
  have hsum : 0 ≤ (cells.map fun cell => amount cell c).sum := by
    refine List.sum_nonneg fun x hx => ?_
    obtain ⟨cell, -, rfl⟩ := List.mem_map.mp hx
    exact hamount cell c
  rw [List.sum_map_mul_right, List.sum_map_mul_left, mul_assoc, shareOf_mul dim (hsize c hc) hsum]

end Weigh

end Engine

end Gridding
