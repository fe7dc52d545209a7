import Gridding.Proofs.Allocation.Merge
import Gridding.Proofs.Allocation.Sequential

/-!
# Outcomes of allocations

Whatever the regions are like, an allocation is one of its shape and has the size of its grid, its
cells are cells of the grid with positive weights, and nothing is listed or covered if the total
weight is zero.
-/

namespace Gridding

open Engine

variable {ρ α ε : Type} [Region ρ α ε] [Zero α] [One α] [Mul α] [Div α] [LT α] [LE α]
  [DecidableLT α] [DecidableLE α] [BEq α] [Tally α] {shape : Shape ρ} {grid : Grid ρ α}
  {data : Dataset ρ α}

/-- What there is to tell of an allocation of a shape to a grid. -/
structure Allocation.IsOf (shape : Shape ρ) (grid : Grid ρ α) (a : Allocation ρ α) : Prop where
  setting : a.setting = (grid.nx, grid.ny, some shape)
  cells : ∀ c ∈ a.cells, ∃ k ∈ grid.cells, ∃ w, 0 < w ∧ c = k.withWeight w
  covered : a.totalWeight = 0 ∧ a.cells = [] ∧ a.covered = false ∨
    a.totalWeight ≠ 0 ∧ grid.covers shape.footprint = .ok a.covered

omit [LE α] [DecidableLE α] [BEq α] in
theorem Engine.of_mem_weighted {cells : List (Cell ρ α)} {clips : List (Clip ρ α)} {dim : Int}
    {total : α} {found : List (Nat × List (Nat × α))} {kept : List (Cell ρ α)}
    (h : weighted (ε := ε) cells clips dim total found = .ok kept) {c : Cell ρ α} (hc : c ∈ kept) :
    ∃ k ∈ cells, ∃ w, 0 < w ∧ c = k.withWeight w := by
  obtain ⟨shares, -, h⟩ := bind_eq_ok.mp h
  obtain ⟨heavy, hheavy, h⟩ := bind_eq_ok.mp h
  cases h
  obtain ⟨o, ho, rfl⟩ := List.mem_filterMap.mp (List.mem_mergeSort.mp hc)
  obtain ⟨⟨k, overlaps⟩, -, hk⟩ := exists_of_mem_result hheavy ho
  obtain ⟨w, -, hk⟩ := bind_eq_ok.mp hk
  have hk := Except.ok.inj hk
  split at hk
  case isFalse => cases hk
  case isTrue hw =>
    obtain ⟨cell, hcell, rfl⟩ := Option.map_eq_some_iff.mp hk
    exact ⟨cell, List.mem_toArray.mp (Array.mem_of_getElem? hcell), w, hw, rfl⟩

/-- An allocation is one of its shape to its grid, however equality of numbers is tested. -/
theorem setting_of_allocate {workers : Int} {a : Allocation ρ α}
    (h : allocate workers shape grid data = .ok a) : a.setting = (grid.nx, grid.ny, some shape) := by
  rw [allocate, allocateBy] at h
  obtain ⟨covered, -, h⟩ := bind_eq_ok.mp h
  obtain ⟨parts, -, h⟩ := bind_eq_ok.mp h
  obtain ⟨total, -, h⟩ := bind_eq_ok.mp h
  split at h
  case isTrue =>
    cases h
    rfl
  case isFalse =>
    obtain ⟨found, -, h⟩ := bind_eq_ok.mp h
    obtain ⟨kept, -, h⟩ := bind_eq_ok.mp h
    cases h
    rfl

theorem isOf_of_allocate [LawfulBEq α] {workers : Int} {a : Allocation ρ α}
    (h : allocate workers shape grid data = .ok a) : a.IsOf shape grid := by
  have hsequential := ((allocate_agree workers shape grid data).ok_iff a).mp h
  obtain ⟨covered, hcovered, h⟩ := bind_eq_ok.mp hsequential
  obtain ⟨clips, -, h⟩ := bind_eq_ok.mp h
  obtain ⟨total, -, h⟩ := bind_eq_ok.mp h
  split at h
  case isTrue htotal =>
    cases h
    exact ⟨rfl, by simp [nothing], .inl ⟨rfl, rfl, rfl⟩⟩
  case isFalse htotal =>
    obtain ⟨found, -, h⟩ := bind_eq_ok.mp h
    obtain ⟨kept, hkept, h⟩ := bind_eq_ok.mp h
    cases h
    refine ⟨rfl, fun c hc => ?_, .inr ⟨by simpa using htotal, hcovered⟩⟩
    obtain ⟨k, hk, hw⟩ := of_mem_weighted hkept hc
    exact ⟨k, (List.mem_filter.mp hk).1, hw⟩

end Gridding
