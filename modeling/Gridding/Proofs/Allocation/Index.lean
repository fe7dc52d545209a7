import Gridding.Proofs.Allocation.Survey
import Gridding.Proofs.Grid.Accepted
import Gridding.Proofs.Region.Mosaic

/-!
# Allocation with an index

Bounds find every granule, clip and cell that an allocation needs: with the index or without it,
the same cells come out with the same weights.
-/

namespace Gridding

variable {ρ α ε κ : Type}

namespace Cell

/-- Rows first, then columns, and not the same place. -/
def Before (a b : Cell ρ α) : Prop := a.row < b.row ∨ (a.row = b.row ∧ a.col < b.col)

theorem precedes_trans (a b c : Cell ρ α) (hab : a.precedes b = true) (hbc : b.precedes c = true) :
    a.precedes c = true := by
  simp only [precedes, Bool.or_eq_true, Bool.and_eq_true, decide_eq_true_eq] at *
  omega

theorem precedes_total (a b : Cell ρ α) : (a.precedes b || b.precedes a) = true := by
  simp only [precedes, Bool.or_eq_true, Bool.and_eq_true, decide_eq_true_eq]
  omega

theorem before_of_precedes {a b : Cell ρ α} (h : a.precedes b = true) (hne : a.place ≠ b.place) :
    a.Before b := by
  simp only [precedes, Bool.or_eq_true, Bool.and_eq_true, decide_eq_true_eq] at h
  rcases h with h | ⟨hrow, hcol⟩
  · exact .inl h
  · refine .inr ⟨hrow, lt_of_le_of_ne hcol fun hcol => hne ?_⟩
    rw [place, place, hrow, hcol]

theorem pairwise_before_mergeSort {cells : List (Cell ρ α)} (h : (cells.map (·.place)).Nodup) :
    (cells.mergeSort precedes).Pairwise Before := by
  have hsorted := List.pairwise_mergeSort precedes_trans precedes_total cells
  have hplaces : ((cells.mergeSort precedes).map (·.place)).Nodup :=
    ((List.mergeSort_perm cells precedes).map _).nodup_iff.mpr h
  exact (hsorted.and (List.pairwise_map.mp hplaces)).imp fun hab => before_of_precedes hab.1 hab.2

end Cell

namespace Engine

theorem nodup_places_positive [Zero α] [LT α] [DecidableLT α] {weights : List (Cell ρ α × α)}
    (h : (weights.map fun w => w.1.place).Nodup) :
    ((weights.filterMap positive).map (·.place)).Nodup := by
  refine List.Nodup.sublist ?_ h
  clear h
  induction weights with
  | nil => exact List.Sublist.slnil
  | cons w weights ih =>
    rw [List.map_cons]
    by_cases hw : 0 < w.2
    · rw [List.filterMap_cons_some (positive_eq_some_iff.mpr ⟨hw, rfl⟩), List.map_cons]
      exact ih.cons_cons w.1.place
    · rw [List.filterMap_cons_none (positive_eq_none hw)]
      exact ih.cons w.1.place

section Matches

variable [Zero α] [LT α]

/-- An allocation has the total and the coverage of a survey of a grid and lists the cells to which
the survey gives a positive weight, each once and with that weight, rows first. -/
structure Matches (grid : Grid ρ α) (a : Allocation ρ α) (s : Survey ρ α) : Prop where
  totalWeight : a.totalWeight = s.totalWeight
  covered : a.covered = s.covered
  surveyed : s.weights.map (·.1) = grid.cells
  ordered : a.cells.Pairwise Cell.Before
  mem_cells (c : Cell ρ α) :
    c ∈ a.cells ↔ ∃ cell w, (cell, w) ∈ s.weights ∧ 0 < w ∧ c = cell.withWeight w

/-- Places and weights of the cells are those of the survey with a positive weight. -/
theorem Matches.mem_entries {grid : Grid ρ α} {a : Allocation ρ α} {s : Survey ρ α}
    (h : Matches grid a s) {entry : (Int × Int) × α} :
    entry ∈ a.cells.map (fun c => (c.place, c.weight)) ↔
      entry ∈ s.weights.map (fun w => (w.1.place, w.2)) ∧ 0 < entry.2 := by
  simp only [List.mem_map, h.mem_cells]
  constructor
  · rintro ⟨_, ⟨cell, w, hmem, hw, rfl⟩, rfl⟩
    exact ⟨⟨(cell, w), hmem, rfl⟩, hw⟩
  · rintro ⟨⟨⟨cell, w⟩, hmem, rfl⟩, hw⟩
    exact ⟨cell.withWeight w, ⟨cell, w, hmem, hw, rfl⟩, rfl⟩

end Matches

variable [Region ρ α ε] [Zero α] [One α] [Mul α] [Div α] [LT α] [LE α] [DecidableLT α]
  [DecidableLE α] [BEq α] [Tally α]

/-- Allocation and survey both fail or come to the same. -/
theorem allocate_index_lossless [Preorder κ] {box : ρ → Box κ} (hbox : Region.Boxed box)
    (h0 : ¬ (0 : α) < 0) (workers : Int) (shape : Shape ρ) {grid : Grid ρ α}
    (hgrid : grid.Accepted) (data : Dataset ρ α) :
    Agree (Matches grid) (allocate workers shape grid data) (survey shape grid data) := by
  have := hbox.lossless
  refine (allocate_agree workers shape grid data).trans_eq ?_
  refine (sequential_agree_survey h0 shape grid data).imp ?_
  rintro _ s hs rfl
  have hcells := survey_cells hs
  have hplaces : (s.weights.map fun w => w.1.place).Nodup := by
    have h := hgrid.nodup_places
    rwa [← hcells, List.map_map] at h
  refine ⟨rfl, rfl, hcells, Cell.pairwise_before_mergeSort (nodup_places_positive hplaces), ?_⟩
  intro c
  rw [List.mem_mergeSort, List.mem_filterMap]
  constructor
  · rintro ⟨⟨cell, w⟩, hw, hc⟩
    exact ⟨cell, w, hw, positive_eq_some_iff.mp hc⟩
  · rintro ⟨cell, w, hw, hc⟩
    exact ⟨(cell, w), hw, positive_eq_some_iff.mpr hc⟩

open Mosaic in
/-- All of a square is allocated to the cell that it is. -/
theorem allocate_index_lossless_squares :
    Agree (Matches (grid 3 1)) (allocate 2 (shape (rectangle 2 0 3 1)) (grid 3 1) areas)
        (survey (shape (rectangle 2 0 3 1)) (grid 3 1) areas) ∧
      ∃ a, allocate 2 (shape (rectangle 2 0 3 1)) (grid 3 1) areas = .ok a ∧ a.totalWeight = 1 ∧
        ∀ entry, entry ∈ a.cells.map (fun c => (c.place, c.weight)) ↔ entry = ((0, 2), 1) := by
  have hagree := allocate_index_lossless boxed (by decide) 2 (shape (rectangle 2 0 3 1))
    (⟨.known .lonLat, rfl⟩ : (grid 3 1).Accepted) areas
  have hfields : (survey (shape (rectangle 2 0 3 1)) (grid 3 1) areas).toOption.map (fun s =>
      (s.totalWeight, s.weights.map fun w => (w.1.place, w.2))) =
        some (1, [((0, 0), 0), ((0, 1), 0), ((0, 2), 1)]) := by decide +kernel
  cases hsurvey : survey (shape (rectangle 2 0 3 1)) (grid 3 1) areas with
  | error e =>
    rw [hsurvey] at hfields
    cases hfields
  | ok s =>
    rw [hsurvey] at hfields
    obtain ⟨htotal, hweights⟩ := Prod.mk.inj (Option.some.inj hfields)
    obtain ⟨a, ha, hmatches⟩ := hagree.exists_ok hsurvey
    refine ⟨hsurvey ▸ hagree, a, ha, hmatches.totalWeight.trans htotal, fun entry => ?_⟩
    rw [hmatches.mem_entries, hweights]
    constructor
    · rintro ⟨hmem, hpos⟩
      simp only [List.mem_cons, List.not_mem_nil, or_false] at hmem
      rcases hmem with rfl | rfl | rfl
      · cases lt_irrefl _ hpos
      · cases lt_irrefl _ hpos
      · rfl
    · rintro rfl
      exact ⟨by simp, one_pos⟩

end Engine

end Gridding
