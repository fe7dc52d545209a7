import Gridding.Allocation.Dense
import Gridding.Proofs.Numeric.Exact

/-!
# Sums of tables

If each cell of an allocation has a place in the table, the entries of the table add up to its
weights, or to one if the shape is covered.
-/

namespace Gridding.Allocation

variable {ρ α : Type}

/-! ## Places -/

/-- Does the cell have a place in a table with so many columns and rows? -/
def HasPlace (nx ny : Int) (c : Cell ρ α) : Prop :=
  -ny ≤ c.row ∧ c.row < ny ∧ -nx ≤ c.col ∧ c.col < nx

instance (nx ny : Int) (c : Cell ρ α) : Decidable (HasPlace nx ny c) :=
  inferInstanceAs (Decidable (_ ∧ _ ∧ _ ∧ _))

theorem exists_wrapIndex {n i : Int} (hlow : -n ≤ i) (hhigh : i < n) :
    ∃ k < n.toNat, wrapIndex? n i = some k := by
  unfold wrapIndex?
  by_cases hi : 0 ≤ i
  · rw [if_pos ⟨hi, hhigh⟩]
    exact ⟨_, by omega, rfl⟩
  · rw [if_neg fun h => hi h.1, if_pos ⟨hlow, by omega⟩]
    exact ⟨_, by omega, rfl⟩

/-- Cells that have places are put there with their weights. -/
theorem exists_placed {nx ny : Int} {cells : List (Cell ρ α)} (h : ∀ c ∈ cells, HasPlace nx ny c) :
    ∃ placed, cells.mapM (placeCell? nx ny) = some placed ∧
      (∀ p ∈ placed, p.1 < ny.toNat ∧ p.2.1 < nx.toNat) ∧
      placed.map (·.2.2) = cells.map (·.weight) := by
  induction cells with
  | nil => exact ⟨[], rfl, by simp, rfl⟩
  | cons c cells ih =>
    obtain ⟨placed, hplaced, hwithin, hweights⟩ := ih fun d hd => h d (List.mem_cons_of_mem c hd)
    obtain ⟨hrow, hrow', hcol, hcol'⟩ := h c List.mem_cons_self
    obtain ⟨row, hrowlt, hrow⟩ := exists_wrapIndex hrow hrow'
    obtain ⟨col, hcollt, hcol⟩ := exists_wrapIndex hcol hcol'
    have hc : placeCell? nx ny c = some (row, col, c.weight) := by
      rw [placeCell?, hrow, hcol]
    refine ⟨(row, col, c.weight) :: placed, ?_, List.forall_mem_cons.mpr ⟨⟨hrowlt, hcollt⟩, hwithin⟩,
      ?_⟩
    · rw [List.mapM_cons, hc, hplaced]
      rfl
    · rw [List.map_cons, List.map_cons, hweights]

/-! ## Entries -/

section Entries

variable [AddCommMonoid α]

theorem sum_range_single {n k : Nat} (h : k < n) (f : Nat → α) (hf : ∀ i, i ≠ k → f i = 0) :
    ((List.range n).map f).sum = f k := by
  rw [List.sum_map_eq_nsmul_single k f fun i hi _ => hf i hi,
    List.count_eq_one_of_mem List.nodup_range (List.mem_range.mpr h), one_nsmul]

theorem entry_cons (p : Nat × Nat × α) (ps : List (Nat × Nat × α)) (row col : Nat) :
    entry (p :: ps) row col =
      (if p.1 = row ∧ p.2.1 = col then p.2.2 else 0) + entry ps row col := by
  have hsum (qs : List (Nat × Nat × α)) : entry qs row col =
      ((qs.filter fun q => q.1 = row && q.2.1 = col).map (·.2.2)).sum := by
    rw [entry, List.sum_eq_foldl, List.foldl_map]
  rw [hsum, hsum, List.filter_cons]
  by_cases hp : p.1 = row ∧ p.2.1 = col
  · simp [hp]
  · rw [if_neg hp, zero_add, if_neg (by simpa using hp)]

theorem sum_entries {nx ny : Nat} {placed : List (Nat × Nat × α)}
    (h : ∀ p ∈ placed, p.1 < ny ∧ p.2.1 < nx) :
    ((List.range ny).map fun r => ((List.range nx).map fun c => entry placed r c).sum).sum =
      (placed.map (·.2.2)).sum := by
  induction placed with
  | nil => simp [entry]
  | cons p ps ih =>
    obtain ⟨⟨hrow, hcol⟩, hrest⟩ := List.forall_mem_cons.mp h
    simp only [entry_cons, List.sum_map_add, ih hrest, List.map_cons, List.sum_cons]
    refine congrArg (· + _) ?_
    -- the cell counts in one row, and there in one column
    rw [sum_range_single hrow, sum_range_single hcol]
    · simp
    · intro c hc
      rw [if_neg fun heq => hc heq.2.symm]
    · intro r hr
      simp [hr.symm]

end Entries

/-! ## Tables -/

variable [Field α] [BEq α] [LawfulBEq α] [Tally α] [ExactTally α]

/-- The weights of the cells added up. -/
def weightSum (a : Allocation ρ α) : α := (a.cells.map (·.weight)).sum

/-- There is a table unless all weights add up to zero. -/
theorem exists_dense {a : Allocation ρ α} (hnx : 0 ≤ a.nx) (hny : 0 ≤ a.ny)
    (h : ∀ c ∈ a.cells, HasPlace a.nx a.ny c) :
    a.weightSum = 0 ∧ a.dense = .ok ⟨none, false⟩ ∨
      a.weightSum ≠ 0 ∧ ∃ rows, a.dense = .ok ⟨some rows, a.covered⟩ ∧
        rows.flatten.sum = if a.covered then 1 else a.weightSum := by
  obtain ⟨placed, hplaced, hwithin, hweights⟩ := exists_placed h
  have htotal : (((List.range a.ny.toNat).map fun r =>
      (List.range a.nx.toNat).map fun c => entry placed r c).flatten).sum = a.weightSum := by
    rw [List.sum_flatten, List.map_map, weightSum, ← hweights]
    exact sum_entries hwithin
  unfold dense
  rw [if_neg (by omega), hplaced]
  simp only [ExactTally.tableSum_eq, htotal]
  by_cases hzero : a.weightSum = 0
  · exact .inl ⟨hzero, by rw [if_pos (beq_iff_eq.mpr hzero)]⟩
  · refine .inr ⟨hzero, ?_⟩
    rw [if_neg (mt beq_iff_eq.mp hzero)]
    cases a.covered with
    | false => exact ⟨_, rfl, htotal⟩
    | true =>
      refine ⟨_, rfl, ?_⟩
      rw [← List.map_flatten, List.sum_map_mul_right, List.map_id', htotal]
      exact mul_one_div_cancel hzero

end Gridding.Allocation
