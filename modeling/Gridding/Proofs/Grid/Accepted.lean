import Gridding.Grid.Basic
import Gridding.Proofs.Fallible
import Gridding.Proofs.Region.Content
import Mathlib.Data.List.Nodup

/-!
# Grids that are accepted

A grid that was built from its cells has as many of them as rows times columns, no two in one place,
and its extent is the union of their footprints.
-/

namespace Gridding.Grid

variable {ρ α ε : Type}

theorem repeatedPlace?_eq_none {seen ps : List (Int × Int)} :
    repeatedPlace? seen ps = none ↔ ps.Nodup ∧ ∀ p ∈ ps, p ∉ seen := by
  induction ps generalizing seen with
  | nil => simp [repeatedPlace?]
  | cons p ps ih =>
    rw [repeatedPlace?, List.nodup_cons, List.forall_mem_cons]
    by_cases hp : p ∈ seen
    · simp [hp]
    · rw [if_neg (by simpa using hp), ih]
      constructor
      · rintro ⟨hps, hseen⟩
        have hnot : p ∉ ps := fun hmem => hseen p hmem List.mem_cons_self
        exact ⟨⟨hnot, hps⟩, hp, fun q hq hmem => hseen q hq (List.mem_cons_of_mem p hmem)⟩
      · rintro ⟨⟨hnot, hps⟩, -, hseen⟩
        refine ⟨hps, fun q hq hmem => ?_⟩
        rcases List.mem_cons.mp hmem with rfl | hmem
        · exact hnot hq
        · exact hseen q hq hmem

/-- Cells are told apart by their places. -/
theorem filter_place {cells : List (Cell ρ α)} (h : (cells.map (·.place)).Nodup) {c : Cell ρ α}
    (hc : c ∈ cells) : cells.filter (fun d => d.row = c.row && d.col = c.col) = [c] := by
  induction cells with
  | nil => cases hc
  | cons d cells ih =>
    obtain ⟨hd, hcells⟩ := List.nodup_cons.mp h
    rcases List.mem_cons.mp hc with rfl | hmem
    · rw [List.filter_cons_of_pos (by simp), List.cons_inj_right, List.filter_eq_nil_iff]
      intro e he hsame
      rw [Bool.and_eq_true, decide_eq_true_iff, decide_eq_true_iff] at hsame
      exact hd (List.mem_map.mpr ⟨e, he, Prod.ext hsame.1 hsame.2⟩)
    · rw [List.filter_cons_of_neg, ih hcells hmem]
      intro hsame
      rw [Bool.and_eq_true, decide_eq_true_iff, decide_eq_true_iff] at hsame
      exact hd (List.mem_map.mpr ⟨c, hmem, Prod.ext hsame.1.symm hsame.2.symm⟩)

/-- A grid that was built from its cells, in some coordinate system. -/
def Accepted [Region ρ α ε] (g : Grid ρ α) : Prop :=
  ∃ system, ofCells g.name g.cells g.nx g.ny system g.spacing g.isIrregular = .ok g

section Accepted

variable [Region ρ α ε] {g : Grid ρ α}

theorem accepted_iff : g.Accepted ↔ (g.cells.length : Int) = g.nx * g.ny ∧
    (g.cells.map (·.place)).Nodup ∧ Region.union (g.cells.map (·.footprint)) = .ok g.extent := by
  have hnone : repeatedPlace? [] (g.cells.map (·.place)) = none ↔
      (g.cells.map (·.place)).Nodup := by simp [repeatedPlace?_eq_none]
  constructor
  · rintro ⟨system, h⟩
    unfold ofCells at h
    split at h
    · cases h
    · rename_i hcount
      split at h
      · cases h
      · rename_i hplaces
        obtain ⟨extent, hextent, h⟩ := bind_eq_ok.mp h
        rw [← (Except.ok.inj h)]
        exact ⟨not_not.mp hcount, hnone.mp hplaces, mapError_eq_ok.mp hextent⟩
      · cases h
  · rintro ⟨hcount, hplaces, hextent⟩
    refine ⟨.known .lonLat, ?_⟩
    unfold ofCells
    rw [if_neg (not_not.mpr hcount), hnone.mpr hplaces, hextent]
    rfl

theorem Accepted.nodup_places (h : g.Accepted) : (g.cells.map (·.place)).Nodup :=
  (accepted_iff.mp h).2.1

theorem Accepted.union_footprints (h : g.Accepted) :
    Region.union (g.cells.map (·.footprint)) = .ok g.extent :=
  (accepted_iff.mp h).2.2

theorem Accepted.place_extent {B : Type} [GeneralizedBooleanAlgebra B] {place : ρ → B}
    (hunion : ∀ rs u, Region.union rs = .ok u → place u = cover (rs.map place)) (h : g.Accepted) :
    place g.extent = cover (g.cells.map fun c => place c.footprint) := by
  rw [hunion _ _ h.union_footprints, List.map_map]
  rfl

end Accepted

end Gridding.Grid
