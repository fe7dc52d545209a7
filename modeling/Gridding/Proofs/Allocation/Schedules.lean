import Gridding.Proofs.Allocation.Sequential
import Gridding.Proofs.Region.Mosaic

/-!
# The schedule of an allocation does not matter

Neither the number of workers nor the order in which stripes start, finish, are observed or are
cancelled shows in an allocation. An intersection that fails fails every allocation that takes it.
-/

namespace Gridding

variable {ρ α ε : Type} [Region ρ α ε]

namespace Engine

theorem meet_ok_of_clip [Mul α] {shape : Shape ρ} {dim : Int} {g : Granule ρ α} {o : Option (Clip ρ α)}
    (h : clip shape dim g = .ok o) : ∃ part, Region.meet g.footprint shape.footprint = .ok part := by
  obtain ⟨part, hpart, -⟩ := bind_eq_ok.mp h
  exact ⟨part, mapError_eq_ok.mp hpart⟩

section Overlaps

variable [Zero α] [LT α] [DecidableLT α]

theorem meet_ok_of_cellOverlaps {dim : Int} {cell : Cell ρ α} {table : List (Nat × Clip ρ α)}
    {overlaps : List (Nat × α)} (h : cellOverlaps dim cell table = .ok overlaps) :
    ∀ c ∈ table, Region.isNear c.2.granule.footprint cell.footprint = true →
      ∃ part, Region.meet c.2.granule.footprint cell.footprint = .ok part := by
  induction table generalizing overlaps with
  | nil => simp
  | cons c table ih =>
    rw [cellOverlaps] at h
    split at h
    · obtain ⟨part, hpart, h⟩ := bind_eq_ok.mp h
      obtain ⟨more, hmore, -⟩ := bind_eq_ok.mp h
      rintro d (_ | ⟨_, hd⟩) hnear
      · exact ⟨part, mapError_eq_ok.mp hpart⟩
      · exact ih hmore d hd hnear
    · rename_i hfar
      rintro d (_ | ⟨_, hd⟩) hnear
      · exact absurd hnear hfar
      · exact ih h d hd hnear

theorem cellOverlaps_ok_of_overlapsOf {dim : Int} {clips : List (Clip ρ α)}
    {cells : List (Cell ρ α)} {found : List (Nat × List (Nat × α))}
    (h : overlapsOf dim clips cells = .ok found) :
    ∀ cell ∈ cells, ∃ overlaps, cellOverlaps dim cell (indexed clips) = .ok overlaps := by
  intro cell hcell
  obtain ⟨os, hos, -⟩ := map_eq_ok.mp h
  obtain ⟨o, -, ho⟩ := exists_result_of_mem hos hcell
  obtain ⟨overlaps, hoverlaps, -⟩ := bind_eq_ok.mp ho
  exact ⟨overlaps, hoverlaps⟩

end Overlaps

variable [Zero α] [One α] [Mul α] [Div α] [LT α] [LE α] [DecidableLT α] [DecidableLE α] [BEq α]
  [Tally α]

/-- An intersection fails that allocating a shape takes: of a granule with the shape or, if there is
anything to allocate, of a clip with a cell. -/
inductive MeetFails (shape : Shape ρ) (grid : Grid ρ α) (data : Dataset ρ α) : Prop where
  | granule (g : Nat × Granule ρ α) (e : ε) (near : g ∈ data.near shape.footprint)
      (fails : Region.meet g.2.footprint shape.footprint = .error e)
  | cell (clips : List (Clip ρ α)) (total : α) (c : Clip ρ α) (cell : Cell ρ α) (e : ε)
      (clips_eq : clipsOf shape data = .ok clips)
      (total_eq : Fault.add (ε := ε) (clips.map (·.contribution)) = .ok total)
      (total_ne : (total == 0) = false) (clip_mem : c ∈ clips)
      (cell_near : cell ∈ grid.near shape.footprint)
      (near : Region.isNear c.granule.footprint cell.footprint = true)
      (fails : Region.meet c.granule.footprint cell.footprint = .error e)

theorem not_meetFails_of_sequential {shape : Shape ρ} {grid : Grid ρ α} {data : Dataset ρ α}
    {a : Allocation ρ α} (h : sequential shape grid data = .ok a) :
    ¬ MeetFails shape grid data := by
  obtain ⟨covered, -, h⟩ := bind_eq_ok.mp h
  obtain ⟨clips, hclips, h⟩ := bind_eq_ok.mp h
  obtain ⟨total, htotal, h⟩ := bind_eq_ok.mp h
  rintro (⟨g, e, hg, hfails⟩ | ⟨clips', total', c, cell, e, hclips', htotal', hne, hc, hcell, hnear,
    hfails⟩)
  · obtain ⟨os, hos, -⟩ := map_eq_ok.mp hclips
    obtain ⟨o, -, ho⟩ := exists_result_of_mem hos
      (List.mem_map_of_mem (f := fun g : Nat × Granule ρ α => g.2) hg)
    obtain ⟨part, hpart⟩ := meet_ok_of_clip ho
    rw [hfails] at hpart
    cases hpart
  · rw [hclips, Except.ok.injEq] at hclips'
    subst hclips'
    rw [htotal, Except.ok.injEq] at htotal'
    subst htotal'
    rw [hne] at h
    obtain ⟨found, hfound, -⟩ := bind_eq_ok.mp h
    obtain ⟨overlaps, hoverlaps⟩ := cellOverlaps_ok_of_overlapsOf hfound cell hcell
    obtain ⟨i, hi, hic⟩ := List.getElem_of_mem hc
    have hmem : (i, c) ∈ indexed clips := by
      rw [indexed, ← hic]
      exact List.mem_iff_getElem.mpr ⟨i, by simpa using hi, by simp⟩
    obtain ⟨part, hpart⟩ := meet_ok_of_cellOverlaps hoverlaps (i, c) hmem hnear
    rw [hfails] at hpart
    cases hpart

/-- Two runs either both fail or give the same allocation, and both fail if an intersection does. -/
theorem allocateUnder_schedule_irrelevant (shape : Shape ρ) (grid : Grid ρ α) (data : Dataset ρ α)
    (workers workers' : Int) (clipEvents clipEvents' cellEvents cellEvents' : List Striped.Event)
    (h : allocateUnder clipEvents cellEvents workers shape grid data ≠ .error none)
    (h' : allocateUnder clipEvents' cellEvents' workers' shape grid data ≠ .error none) :
    Agree (· = ·) (allocateUnder clipEvents cellEvents workers shape grid data)
        (allocateUnder clipEvents' cellEvents' workers' shape grid data) ∧
      (MeetFails shape grid data →
        ∃ e, allocateUnder clipEvents cellEvents workers shape grid data = .error (some e)) := by
  refine ⟨(allocateUnder_agree h).trans_eq (allocateUnder_agree h').symm, fun hfails => ?_⟩
  cases hr : allocateUnder clipEvents cellEvents workers shape grid data with
  | ok a =>
    have ha := ((allocateUnder_agree h).ok_iff a).mp hr
    exact absurd hfails (not_meetFails_of_sequential ha)
  | error reason =>
    cases reason with
    | none => exact absurd hr h
    | some e => exact ⟨e, rfl⟩

open Mosaic in
set_option maxRecDepth 10000 in
theorem allocateUnder_schedule_irrelevant_squares :
    Agree (· = ·)
      (allocateUnder [.start 1, .start 0, .finish 1 none, .observe 1, .finish 0 none, .observe 0]
        [.start 0, .start 1, .finish 1 none, .finish 0 none, .observe 1, .observe 0] 2
        (shape (rectangle 0 0 3 1)) (grid 2 1) areas)
      (allocateUnder [.start 0, .finish 0 none, .observe 0] [.start 0, .finish 0 none, .observe 0] 1
        (shape (rectangle 0 0 3 1)) (grid 2 1) areas) :=
  (allocateUnder_schedule_irrelevant (shape (rectangle 0 0 3 1)) (grid 2 1) areas 2 1 _ _ _ _
    (by cbv; intro h; cases h) (by cbv; intro h; cases h)).1

end Engine

end Gridding
