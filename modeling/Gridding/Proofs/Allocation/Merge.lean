import Gridding.Allocation.Merge
import Gridding.Proofs.Fallible
import Gridding.Proofs.Numeric.Exact
import Gridding.Proofs.Numeric.Sums

/-!
# Sums of allocations

A term of a weighted sum is a factor and an allocation. Two lists of terms have the same sum if they
come to the same cells, in the same order, to the same total weight, and their first terms to the
same coverage. Terms may then be put for an allocation that is their sum, in any longer sum and under
any factor.
-/

namespace Gridding.Allocation

variable {ρ α : Type}

/-- What is told of an allocation before any cell gets a weight: its grid's size and its shape. -/
def setting (a : Allocation ρ α) : Int × Int × Option (Shape ρ) := (a.nx, a.ny, a.shape)

theorem find?_other_eq_none_iff {results : List (Allocation ρ α)} {nx ny : Int} :
    results.find? (fun r => r.nx ≠ nx || r.ny ≠ ny) = none ↔
      ∀ r ∈ results, r.nx = nx ∧ r.ny = ny := by
  rw [List.find?_eq_none]
  refine forall₂_congr fun r _ => ?_
  simp

section Outcome

variable [Zero α] [Add α] [Mul α]

/-- When allocations can be merged, and to what. -/
theorem merge_eq_ok_iff {results : List (Allocation ρ α)} {multipliers : List α}
    {m : Allocation ρ α} :
    merge results multipliers = .ok m ↔ ∃ first rest, results = first :: rest ∧
      results.length = multipliers.length ∧
      (∀ r ∈ results, r.nx = first.nx ∧ r.ny = first.ny) ∧
      m = ⟨(results.zip multipliers).flatMap fun p => scaledCells p.1 p.2, first.covered, first.nx,
        first.ny, first.shape,
        (results.zip multipliers).foldl (fun sum p => sum + p.2 * p.1.totalWeight) 0⟩ := by
  cases results with
  | nil => simp [merge]
  | cons first rest =>
    constructor
    · intro h
      rw [merge] at h
      split at h
      · cases h
      · rename_i hlen
        split at h
        · cases h
        · rename_i hsame
          exact ⟨first, rest, rfl, not_not.mp hlen, find?_other_eq_none_iff.mp hsame,
            (Except.ok.inj h).symm⟩
    · rintro ⟨_, _, heq, hlen, hsame, rfl⟩
      cases heq
      rw [merge, if_neg (not_not.mpr hlen), find?_other_eq_none_iff.mpr hsame]

/-- Allocations of one shape to one grid can be merged, whatever numbers their weights are. -/
theorem merge_cons {first : Allocation ρ α} {rest : List (Allocation ρ α)} {multipliers : List α}
    {place : Int × Int × Option (Shape ρ)} (hlen : (first :: rest).length = multipliers.length)
    (hplace : ∀ r ∈ first :: rest, r.setting = place) :
    merge (first :: rest) multipliers =
      .ok ⟨((first :: rest).zip multipliers).flatMap fun p => scaledCells p.1 p.2, first.covered,
        first.nx, first.ny, first.shape,
        ((first :: rest).zip multipliers).foldl (fun sum p => sum + p.2 * p.1.totalWeight) 0⟩ := by
  refine merge_eq_ok_iff.mpr ⟨first, rest, rfl, hlen, fun r hr => ?_, rfl⟩
  have heq : r.setting = first.setting :=
    (hplace r hr).trans (hplace first List.mem_cons_self).symm
  exact ⟨congrArg (·.1) heq, congrArg (·.2.1) heq⟩

end Outcome

section Terms

variable [CommSemiring α]

/-- A term under one more factor. -/
def scaledTerm (m : α) (t : α × Allocation ρ α) : α × Allocation ρ α := (t.1 * m, t.2)

structure SameSum (ts us : List (α × Allocation ρ α)) : Prop where
  cells : ts.flatMap (fun t => t.2.scaledCells t.1) = us.flatMap fun u => u.2.scaledCells u.1
  totalWeight : (ts.map fun t => t.1 * t.2.totalWeight).sum =
    (us.map fun u => u.1 * u.2.totalWeight).sum
  covered : ts.head?.map (·.2.covered) = us.head?.map (·.2.covered)

theorem scaledCells_one (a : Allocation ρ α) : a.scaledCells 1 = a.cells := by
  rw [scaledCells]
  conv_rhs => rw [← List.map_id a.cells]
  refine List.map_congr_left fun c _ => ?_
  rw [mul_one]
  rfl

theorem scaledCells_mul (a : Allocation ρ α) (x m : α) :
    a.scaledCells (x * m) = (a.scaledCells x).map fun c => c.withWeight (c.weight * m) := by
  rw [scaledCells, scaledCells, List.map_map]
  refine List.map_congr_left fun c _ => ?_
  rw [← mul_assoc]
  rfl

namespace SameSum

variable {ts ts' us us' : List (α × Allocation ρ α)}

theorem refl (ts : List (α × Allocation ρ α)) : SameSum ts ts := ⟨rfl, rfl, rfl⟩

theorem trans {vs : List (α × Allocation ρ α)} (h : SameSum ts us) (h' : SameSum us vs) :
    SameSum ts vs :=
  ⟨h.cells.trans h'.cells, h.totalWeight.trans h'.totalWeight, h.covered.trans h'.covered⟩

theorem append (h : SameSum ts us) (h' : SameSum ts' us') : SameSum (ts ++ ts') (us ++ us') where
  cells := by rw [List.flatMap_append, List.flatMap_append, h.cells, h'.cells]
  totalWeight := by
    rw [List.map_append, List.map_append, List.sum_append, List.sum_append, h.totalWeight,
      h'.totalWeight]
  covered := by
    simp only [List.head?_append, Option.map_or, h.covered, h'.covered]

theorem scale (h : SameSum ts us) (m : α) :
    SameSum (ts.map (scaledTerm m)) (us.map (scaledTerm m)) where
  cells := by
    have hcells (vs : List (α × Allocation ρ α)) :
        (vs.map (scaledTerm m)).flatMap (fun v => v.2.scaledCells v.1) =
          (vs.flatMap fun v => v.2.scaledCells v.1).map fun c => c.withWeight (c.weight * m) := by
      rw [List.flatMap_map, List.map_flatMap]
      exact List.flatMap_congr fun v _ => scaledCells_mul v.2 v.1 m
    rw [hcells, hcells, h.cells]
  totalWeight := by
    have htotal (vs : List (α × Allocation ρ α)) :
        ((vs.map (scaledTerm m)).map fun v => v.1 * v.2.totalWeight).sum =
          (vs.map fun v => v.1 * v.2.totalWeight).sum * m := by
      rw [List.map_map, ← List.sum_map_mul_right]
      refine congrArg List.sum (List.map_congr_left fun v _ => ?_)
      exact mul_right_comm v.1 m v.2.totalWeight
    rw [htotal, htotal, h.totalWeight]
  covered := by
    have hcovered (vs : List (α × Allocation ρ α)) :
        (vs.map (scaledTerm m)).head?.map (·.2.covered) = vs.head?.map (·.2.covered) := by
      rw [List.head?_map, Option.map_map]
      rfl
    rw [hcovered, hcovered, h.covered]

end SameSum

theorem foldl_add_eq_sum (ps : List (Allocation ρ α × α)) (x : α) :
    ps.foldl (fun sum p => sum + p.2 * p.1.totalWeight) x =
      x + (ps.map fun p => p.2 * p.1.totalWeight).sum := by
  induction ps generalizing x with
  | nil => simp
  | cons p ps ih => rw [List.foldl_cons, ih, List.map_cons, List.sum_cons, add_assoc]

/-- A merged allocation is the sum of its parts. -/
theorem sameSum_of_merge {results : List (Allocation ρ α)} {multipliers : List α}
    {m : Allocation ρ α} (h : merge results multipliers = .ok m) :
    SameSum (multipliers.zip results) [(1, m)] := by
  obtain ⟨first, rest, rfl, hlen, -, rfl⟩ := merge_eq_ok_iff.mp h
  have hzip : multipliers.zip (first :: rest) = ((first :: rest).zip multipliers).map Prod.swap :=
    (List.zip_swap _ _).symm
  refine ⟨?_, ?_, ?_⟩
  · rw [List.flatMap_singleton, scaledCells_one, hzip, List.flatMap_map]
    rfl
  · rw [List.map_singleton, List.sum_singleton, one_mul, foldl_add_eq_sum, zero_add, hzip,
      List.map_map]
    rfl
  · cases multipliers with
    | nil => cases hlen
    | cons m ms => rfl

/-- Allocations of one shape to one grid can be merged, and the merged one is their sum. -/
theorem exists_merge {results : List (Allocation ρ α)} {multipliers : List α}
    {place : Int × Int × Option (Shape ρ)} (hne : results ≠ [])
    (hlen : results.length = multipliers.length) (hplace : ∀ r ∈ results, r.setting = place) :
    ∃ a, merge results multipliers = .ok a ∧ a.setting = place ∧
      SameSum (multipliers.zip results) [(1, a)] := by
  cases results with
  | nil => exact absurd rfl hne
  | cons first rest =>
    have hmerge := merge_cons hlen hplace
    exact ⟨_, hmerge, hplace first List.mem_cons_self, sameSum_of_merge hmerge⟩

end Terms

/-! ## Weights at places -/

section Weights

variable [Field α] [Tally α] [ExactTally α]

/-- The weight of a cell's place in a sum is the sum of the weights there. -/
theorem SameSum.weightAt {ts : List (α × Allocation ρ α)} {a : Allocation ρ α}
    (h : SameSum ts [(1, a)]) (row col : Int) :
    a.weightAt row col =
      (ts.mapM fun t : α × Allocation ρ α => (t.2.weightAt row col).map (t.1 * ·)).map List.sum := by
  let here (c : Cell ρ α) : Bool := c.row = row && c.col = col
  have hcells : a.cells = ts.flatMap fun t => t.2.scaledCells t.1 := by
    rw [h.cells, List.flatMap_singleton, scaledCells_one]
  have hterm (t : α × Allocation ρ α) : (((t.2.scaledCells t.1).filter here).map (·.weight)).sum =
      t.1 * ((t.2.cells.filter here).map (·.weight)).sum := by
    rw [scaledCells, List.filter_map, List.map_map, ← List.sum_map_mul_left]
    refine congrArg List.sum (List.map_congr_left fun c _ => ?_)
    exact mul_comm c.weight t.1
  have hok : (ts.mapM fun t => (t.2.weightAt row col).map (t.1 * ·)) =
      .ok (ts.map fun t => t.1 * ((t.2.cells.filter here).map (·.weight)).sum) := by
    refine mapM_eq_ok_iff.mpr ?_
    rw [List.map_map]
    refine List.map_congr_left fun t _ => ?_
    rw [Allocation.weightAt, ExactTally.sum_eq]
    rfl
  rw [hok, Allocation.weightAt, ExactTally.sum_eq, hcells, List.filter_flatMap, List.map_flatMap,
    sum_flatMap]
  exact congrArg (fun xs => Except.ok (List.sum xs)) (List.map_congr_left fun t _ => hterm t)

/-- An allocation of a shape to a grid is the sum of others under their factors, in their order. -/
structure IsSum (shape : Shape ρ) (grid : Grid ρ α) (ts : List (α × Allocation ρ α))
    (a : Allocation ρ α) : Prop where
  nx : a.nx = grid.nx
  ny : a.ny = grid.ny
  shape : a.shape = some shape
  cells : a.cells = ts.flatMap fun t => t.2.scaledCells t.1
  totalWeight : a.totalWeight = (ts.map fun t => t.1 * t.2.totalWeight).sum
  weightAt : ∀ row col, a.weightAt row col =
    (ts.mapM fun t : α × Allocation ρ α => (t.2.weightAt row col).map (t.1 * ·)).map List.sum
  covered : ts.head?.map (·.2.covered) = some a.covered

theorem SameSum.isSum {shape : Shape ρ} {grid : Grid ρ α} {ts : List (α × Allocation ρ α)}
    {a : Allocation ρ α} (h : SameSum ts [(1, a)])
    (hplace : a.setting = (grid.nx, grid.ny, some shape)) : a.IsSum shape grid ts where
  nx := congrArg (·.1) hplace
  ny := congrArg (·.2.1) hplace
  shape := congrArg (·.2.2) hplace
  cells := by rw [h.cells, List.flatMap_singleton, scaledCells_one]
  totalWeight := by rw [h.totalWeight, List.map_singleton, List.sum_singleton, one_mul]
  weightAt := h.weightAt
  covered := h.covered

end Weights

end Gridding.Allocation
