import Gridding.Proofs.Allocation.Sequential
import Gridding.Proofs.Region.Bounds

/-!
# The table of overlaps

The table has a row for each cell and in it an entry for each clip, which is blank if the two do not
overlap. If an index loses nothing, allocation finds the rows that are not all blank, without
looking at most of the others.
-/

namespace Gridding

variable {ρ α ε : Type}

namespace Engine

section Rows

/-- A row whose entries are not all blank, by places. -/
def litRow (r : Cell ρ α × List (Option α)) : Option (Cell ρ α × List (Nat × α)) :=
  if (Striped.placed 0 r.2).isEmpty then none else some (r.1, Striped.placed 0 r.2)

theorem present_litRow (rows : List (Cell ρ α × List (Option α))) :
    Striped.present (rows.map (·.1)) (rows.map fun r => (litRow r).map (·.2)) =
      rows.filterMap litRow := by
  induction rows with
  | nil => rfl
  | cons r rows ih =>
    rw [List.map_cons, List.map_cons]
    cases hr : litRow r with
    | none => rw [List.filterMap_cons_none hr, Option.map_none, Striped.present_cons_none, ih]
    | some l =>
      have hl : (r.1, l.2) = l := by
        unfold litRow at hr
        split at hr
        · cases hr
        · cases hr
          rfl
      rw [List.filterMap_cons_some hr, Option.map_some, Striped.present_cons_some, ih, hl]

end Rows

variable [Region ρ α ε]

section Clips

theorem map_snd_near (data : Dataset ρ α) (r : ρ) :
    (data.near r).map (·.2) = data.granules.filter fun g => Region.isNear g.footprint r := by
  have hzip : ((List.range data.granules.length).zip data.granules).map (·.2) = data.granules :=
    List.map_snd_zip (by simp)
  conv_rhs => rw [← hzip, List.filter_map]
  rfl

variable [Mul α]

/-- The clips of all granules that are not empty. -/
def clipsOfAll (shape : Shape ρ) (data : Dataset ρ α) : Except (Fault ε) (List (Clip ρ α)) :=
  (data.granules.mapM (clip shape data.dimension)).map List.reduceOption

theorem clipsOf_eq_clipsOfAll [Region.Lossless ρ] (shape : Shape ρ) (data : Dataset ρ α) :
    clipsOf (ε := ε) shape data = clipsOfAll shape data := by
  rw [clipsOf, clipsOfAll, map_snd_near]
  refine mapM_filterMap_filter (q := id) fun g _ hfar => ⟨none, ?_, rfl⟩
  obtain ⟨part, hpart, hempty⟩ := Region.Lossless.meet_of_far g.footprint shape.footprint hfar
  simp [clip, Fault.meet, hpart, hempty, Except.mapError, bind, Except.bind, pure, Except.pure]

/-- A clip is an intersection with the shape. -/
theorem meet_of_mem_clipsOfAll {shape : Shape ρ} {data : Dataset ρ α} {clips : List (Clip ρ α)}
    (h : clipsOfAll (ε := ε) shape data = .ok clips) {c : Clip ρ α} (hc : c ∈ clips) :
    ∃ g ∈ data.granules, Region.meet g.footprint shape.footprint = .ok c.granule.footprint := by
  obtain ⟨os, hos, rfl⟩ := map_eq_ok.mp h
  obtain ⟨g, hg, hclip⟩ := exists_of_mem_result hos (List.reduceOption_mem_iff.mp hc)
  obtain ⟨part, hpart, hc⟩ := bind_eq_ok.mp hclip
  refine ⟨g, hg, ?_⟩
  cases he : Region.isEmpty part with
  | true => simp [he, pure, Except.pure] at hc
  | false =>
    simp only [he, pure, Except.pure, Except.ok.injEq] at hc
    cases hc
    exact mapError_eq_ok.mp hpart

end Clips

section Table

variable [Zero α] [LT α] [DecidableLT α]

/-- The overlap of a cell with a clip, if it is positive. -/
def overlap (dim : Int) (cell : Cell ρ α) (c : Clip ρ α) : Except (Fault ε) (Option α) := do
  let part ← Fault.meet c.granule.footprint cell.footprint
  let overlap := Region.measure dim part
  return if !Region.isEmpty part && decide (0 < overlap) then some overlap else none

/-- A row for each cell and in it an entry for each clip. -/
def table (dim : Int) (clips : List (Clip ρ α)) (cells : List (Cell ρ α)) :
    Except (Fault ε) (List (Cell ρ α × List (Option α))) :=
  cells.mapM fun cell => (clips.mapM (overlap dim cell)).map fun row => (cell, row)

/-- The overlap of a cell with a clip that is near it, by the bounds of both. -/
def overlapNear (dim : Int) (cell : Cell ρ α) (c : Clip ρ α) : Except (Fault ε) (Option α) :=
  if Region.isNear c.granule.footprint cell.footprint then overlap dim cell c else .ok none

theorem overlapNear_eq [Region.Lossless ρ] (dim : Int) (cell : Cell ρ α) (c : Clip ρ α) :
    overlapNear (ε := ε) dim cell c = overlap dim cell c := by
  cases hnear : Region.isNear c.granule.footprint cell.footprint with
  | true => rw [overlapNear, if_pos hnear]
  | false =>
    obtain ⟨part, hpart, hempty⟩ := Region.Lossless.meet_of_far _ _ hnear
    rw [overlapNear, if_neg (by simp [hnear])]
    simp [overlap, Fault.meet, hpart, hempty, Except.mapError, bind, Except.bind, pure, Except.pure]

theorem cellOverlaps_eq (dim : Int) (cell : Cell ρ α) (clips : List (Clip ρ α)) :
    cellOverlaps (ε := ε) dim cell (indexed clips) =
      (clips.mapM (overlapNear dim cell)).map (Striped.placed 0) := by
  rw [indexed, List.range_eq_range']
  generalize 0 = k
  induction clips generalizing k with
  | nil => rfl
  | cons c clips ih =>
    rw [List.length_cons, List.range'_succ, List.zip_cons_cons, cellOverlaps, List.mapM_cons, ih,
      overlapNear]
    split
    · rw [overlap]
      cases Fault.meet (ε := ε) c.granule.footprint cell.footprint with
      | error e => rfl
      | ok part =>
        cases clips.mapM (overlapNear (ε := ε) dim cell) with
        | error e => rfl
        | ok row =>
          simp only [bind, Except.bind, pure, Except.pure, Except.map]
          split <;> rfl
    · cases clips.mapM (overlapNear (ε := ε) dim cell) <;> rfl

/-- A cell out of reach of the shape overlaps none of the clips. -/
theorem row_of_far [Mul α] [Region.Lossless ρ] {shape : Shape ρ} {data : Dataset ρ α}
    {clips : List (Clip ρ α)} (h : clipsOfAll (ε := ε) shape data = .ok clips) (dim : Int)
    {cell : Cell ρ α} (hfar : Region.isNear cell.footprint shape.footprint = false) :
    clips.mapM (overlap (ε := ε) dim cell) = .ok (List.replicate clips.length none) := by
  rw [mapM_eq_ok_iff, List.map_replicate, List.eq_replicate_iff, List.length_map]
  refine ⟨rfl, fun x hx => ?_⟩
  obtain ⟨c, hc, rfl⟩ := List.mem_map.mp hx
  obtain ⟨g, -, hmeet⟩ := meet_of_mem_clipsOfAll h hc
  obtain ⟨part, hpart, hempty⟩ := Region.Lossless.meet_of_part_of_far _ _ cell.footprint _ hmeet hfar
  simp [overlap, Fault.meet, hpart, hempty, Except.mapError, bind, Except.bind, pure, Except.pure]

theorem table_of_near [Mul α] [Region.Lossless ρ] {shape : Shape ρ} {data : Dataset ρ α}
    {clips : List (Clip ρ α)} (h : clipsOfAll (ε := ε) shape data = .ok clips) (dim : Int)
    (grid : Grid ρ α) :
    (table (ε := ε) dim clips (grid.near shape.footprint)).map (List.filterMap litRow) =
      (table dim clips grid.cells).map (List.filterMap litRow) := by
  refine mapM_filterMap_filter fun cell _ hfar => ?_
  refine ⟨(cell, List.replicate clips.length none), ?_, ?_⟩
  · rw [row_of_far h dim hfar]
    rfl
  · have hblank : Striped.placed 0 (List.replicate clips.length (none : Option α)) = [] := by
      rw [← List.map_eq_nil_iff (f := Prod.snd), Striped.map_snd_placed,
        List.reduceOption_replicate_none]
    simp [litRow, hblank]

/-- What the index finds, cell by cell. -/
theorem overlapsOf_eq (dim : Int) (clips : List (Clip ρ α)) (cells : List (Cell ρ α)) :
    overlapsOf (ε := ε) dim clips cells = (cells.mapM fun cell =>
        (clips.mapM (overlapNear dim cell)).map fun row => (cell, row)).map fun rows =>
      Striped.placed 0 (rows.map fun r => (litRow r).map (·.2)) := by
  have hrow (cell : Cell ρ α) : (do
        let overlaps ← cellOverlaps (ε := ε) dim cell (indexed clips)
        return if overlaps.isEmpty then none else some overlaps) =
      ((clips.mapM (overlapNear dim cell)).map fun row => (cell, row)).map
        fun r => (litRow r).map (·.2) := by
    rw [cellOverlaps_eq]
    cases clips.mapM (overlapNear (ε := ε) dim cell) with
    | error e => rfl
    | ok row =>
      simp only [bind, Except.bind, Except.map, pure, Except.pure, litRow]
      split <;> rfl
  rw [overlapsOf, mapM_congr fun cell _ => hrow cell, mapM_map_ok]
  cases cells.mapM fun cell => (clips.mapM (overlapNear (ε := ε) dim cell)).map
    fun row => (cell, row) <;> rfl

theorem overlapsOf_eq_table [Region.Lossless ρ] (dim : Int) (clips : List (Clip ρ α))
    (cells : List (Cell ρ α)) :
    overlapsOf (ε := ε) dim clips cells = (table dim clips cells).map fun rows =>
      Striped.placed 0 (rows.map fun r => (litRow r).map (·.2)) := by
  have hnear (cell : Cell ρ α) : overlapNear (ε := ε) dim cell = overlap dim cell :=
    funext (overlapNear_eq dim cell)
  simp only [overlapsOf_eq, hnear, table]

theorem cells_of_table {dim : Int} {clips : List (Clip ρ α)} {cells : List (Cell ρ α)}
    {rows : List (Cell ρ α × List (Option α))} (h : table (ε := ε) dim clips cells = .ok rows) :
    rows.map (·.1) = cells := by
  have hcells := map_result (g := Prod.fst) (k := id) h fun cell r hr => by
    obtain ⟨row, -, rfl⟩ := map_eq_ok.mp hr
    rfl
  rwa [List.map_id] at hcells

theorem mapM_overlap_of_mem {dim : Int} {clips : List (Clip ρ α)} {cells : List (Cell ρ α)}
    {rows : List (Cell ρ α × List (Option α))} (h : table (ε := ε) dim clips cells = .ok rows)
    {r : Cell ρ α × List (Option α)} (hr : r ∈ rows) :
    clips.mapM (overlap (ε := ε) dim r.1) = .ok r.2 := by
  obtain ⟨cell, -, hcell⟩ := exists_of_mem_result h hr
  obtain ⟨row, hrow, rfl⟩ := map_eq_ok.mp hcell
  exact hrow

end Table

end Engine

end Gridding
