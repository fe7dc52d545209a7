import Gridding.Proofs.Allocation.Table

/-!
# Allocation without an index

`survey` clips every granule to the shape, intersects every clip with every cell of the grid and
gives each cell its weight. If an index loses nothing, allocation lists the cells of the survey that
weigh something, and it fails if the survey does: rows that are all blank change neither the share
of a clip nor the weight of another cell.
-/

namespace Gridding

variable {ρ α ε : Type}

namespace Engine

section Places

variable {cells : List (Cell ρ α)} {os : List (Option (List (Nat × α)))}

/-- The cells that overlap something, found by their places or listed with their overlaps. -/
theorem lookup_placed (hlen : os.length = cells.length) :
    (Striped.placed 0 os).map (fun f => (cells.toArray[f.1]?, f.2)) =
      (Striped.present cells os).map fun r => (some r.1, r.2) :=
  Striped.map_placed (F := fun cell o => (some cell, o)) hlen fun j hj b => by simp [hj]

variable [Zero α] [LT α] [DecidableLT α]

/-- A cell with its weight, if that is positive. -/
def positive (c : Cell ρ α × α) : Option (Cell ρ α) :=
  if 0 < c.2 then some (c.1.withWeight c.2) else none

theorem positive_eq_none {c : Cell ρ α × α} (h : ¬ 0 < c.2) : positive c = none := if_neg h

theorem positive_eq_some_iff {c : Cell ρ α × α} {d : Cell ρ α} :
    positive c = some d ↔ 0 < c.2 ∧ d = c.1.withWeight c.2 := by
  unfold positive
  split
  · simp_all [eq_comm]
  · simp_all

theorem kept_placed (hlen : os.length = cells.length)
    (weight : List (Nat × α) → Except (Fault ε) α) :
    ((Striped.placed 0 os).mapM fun f => do
        let w ← weight f.2
        return if 0 < w then cells.toArray[f.1]?.map (·.withWeight w) else none) =
      ((Striped.present cells os).mapM fun r =>
        (weight r.2).map fun w => (r.1, w)).map (List.map positive) := by
  have h := congrArg (List.mapM fun q : Option (Cell ρ α) × List (Nat × α) => (weight q.2).map
    fun w => if 0 < w then q.1.map (·.withWeight w) else none) (lookup_placed hlen)
  rw [List.mapM_map, List.mapM_map] at h
  rw [← mapM_map_ok]
  refine (mapM_congr fun f _ => ?_).trans (h.trans (mapM_congr fun r _ => ?_))
  · simp only [Function.comp_apply]
    cases weight f.2 <;> rfl
  · simp only [Function.comp_apply]
    cases weight r.2 <;> rfl

end Places

section Rows

/-- The overlaps of the `i`-th clip. -/
def column (i : Nat) (rows : List (Cell ρ α × List (Option α))) : List α :=
  rows.filterMap fun r => r.2[i]?.join

theorem column_litRow (i : Nat) (rows : List (Cell ρ α × List (Option α))) :
    ((rows.filterMap litRow).flatMap fun r => (r.2.filter fun o => o.1 = i).map (·.2)) =
      column i rows := by
  induction rows with
  | nil => rfl
  | cons r rows ih =>
    have hi := Striped.filter_placed 0 i r.2
    rw [Nat.zero_add] at hi
    have hhead : column i (r :: rows) = r.2[i]?.join.toList ++ column i rows := by
      unfold column
      cases h : r.2[i]?.join <;> simp [h]
    rw [hhead, ← hi, ← ih]
    unfold litRow
    rw [List.filterMap_cons]
    split
    · rename_i hblank
      split at hblank
      · rename_i hempty
        rw [List.isEmpty_iff.mp hempty]
        rfl
      · cases hblank
    · rename_i l hl
      split at hl
      · cases hl
      · cases hl
        rw [List.flatMap_cons]

variable [Zero α] [Mul α] [Div α] [Tally α]

/-- The weight of a row, nothing if all its entries are blank. -/
def rowWeight (clips : List (Clip ρ α)) (shares : List α) (total : α) (row : List (Option α)) :
    Except (Fault ε) α :=
  if row.reduceOption.isEmpty then .ok 0
  else do
    let sum ← Fault.add ((Striped.present (clips.zip shares) row).map fun e =>
      e.1.1.granule.weight * e.2 * e.1.2)
    return sum / total

theorem rowWeight_of_blank {row : List (Option α)} (h : Striped.placed 0 row = [])
    (clips : List (Clip ρ α)) (shares : List α) (total : α) :
    rowWeight (ε := ε) clips shares total row = .ok 0 := by
  rw [rowWeight, ← Striped.map_snd_placed 0, h]
  rfl

theorem rowWeight_of_lit {row : List (Option α)} (h : Striped.placed 0 row ≠ [])
    {clips : List (Clip ρ α)} {shares : List α} (hrow : row.length = clips.length)
    (hshares : shares.length = clips.length) (total : α) :
    rowWeight (ε := ε) clips shares total row =
      cellWeight clips.toArray shares.toArray total (Striped.placed 0 row) := by
  rw [rowWeight, if_neg (by rw [← Striped.map_snd_placed 0]; simpa using h), cellWeight]
  have hlen : row.length = (clips.zip shares).length := by simp [hrow, hshares]
  rw [Striped.map_placed (F := fun e v => e.1.granule.weight * v * e.2) hlen]
  intro j hj v
  rw [List.length_zip, hshares, Nat.min_self] at hj
  simp [hj, hshares]

theorem mapM_rowWeight [LT α] [DecidableLT α] (h0 : ¬ (0 : α) < 0) {clips : List (Clip ρ α)} {shares : List α}
    (hshares : shares.length = clips.length) (total : α)
    {rows : List (Cell ρ α × List (Option α))} (hrows : ∀ r ∈ rows, r.2.length = clips.length) :
    (rows.mapM fun r => (rowWeight (ε := ε) clips shares total r.2).map fun w => (r.1, w)).map
        (List.filterMap positive) =
      ((rows.filterMap litRow).mapM fun r => (cellWeight clips.toArray shares.toArray total
        r.2).map fun w => (r.1, w)).map (List.filterMap positive) := by
  induction rows with
  | nil => rfl
  | cons r rows ih =>
    obtain ⟨hr, hrows⟩ := List.forall_mem_cons.mp hrows
    have ih := ih hrows
    rw [List.mapM_cons]
    by_cases hblank : Striped.placed 0 r.2 = []
    · have hlit : litRow r = none := by simp [litRow, hblank]
      rw [List.filterMap_cons_none hlit, ← ih, rowWeight_of_blank hblank]
      cases rows.mapM fun r => (rowWeight (ε := ε) clips shares total r.2).map fun w => (r.1, w) with
      | error e => rfl
      | ok weights =>
        change Except.ok (((r.1, (0 : α)) :: weights).filterMap positive) = _
        rw [List.filterMap_cons_none (positive_eq_none h0)]
        rfl
    · have hlit : litRow r = some (r.1, Striped.placed 0 r.2) := by simp [litRow, hblank]
      rw [List.filterMap_cons_some hlit, List.mapM_cons, rowWeight_of_lit hblank hr hshares]
      cases cellWeight (ε := ε) clips.toArray shares.toArray total (Striped.placed 0 r.2) with
      | error e => rfl
      | ok w =>
        revert ih
        cases rows.mapM fun r => (rowWeight (ε := ε) clips shares total r.2).map
            fun w => (r.1, w) <;>
          cases (rows.filterMap litRow).mapM fun r => (cellWeight (ε := ε) clips.toArray
            shares.toArray total r.2).map fun w => (r.1, w) <;>
          simp +contextual [bind, Except.bind, Except.map, pure, Except.pure, List.filterMap_cons]

end Rows

variable [Region ρ α ε]

section Weights

variable [Zero α] [One α] [Mul α] [Div α] [LT α] [DecidableLT α] [Tally α]

/-- The weights of all cells. -/
def weigh (dim : Int) (clips : List (Clip ρ α)) (total : α)
    (rows : List (Cell ρ α × List (Option α))) : Except (Fault ε) (List (Cell ρ α × α)) := do
  let shares ← (indexed clips).mapM fun p => share dim p.2 (column p.1 rows)
  rows.mapM fun r => (rowWeight clips shares total r.2).map fun w => (r.1, w)

/-- The cells with a positive weight among those that overlap something. -/
def weighLit (dim : Int) (clips : List (Clip ρ α)) (total : α)
    (rows : List (Cell ρ α × List (Nat × α))) : Except (Fault ε) (List (Cell ρ α)) := do
  let shares ← (indexed clips).mapM fun p =>
    share dim p.2 (rows.flatMap fun r => (r.2.filter fun o => o.1 = p.1).map (·.2))
  (rows.mapM fun r => (cellWeight clips.toArray shares.toArray total r.2).map
    fun w => (r.1, w)).map (List.filterMap positive)

theorem weighted_placed {cells : List (Cell ρ α)} {os : List (Option (List (Nat × α)))}
    (hlen : os.length = cells.length) (clips : List (Clip ρ α)) (dim : Int) (total : α) :
    weighted (ε := ε) cells clips dim total (Striped.placed 0 os) =
      (weighLit dim clips total (Striped.present cells os)).map
        fun kept => kept.mergeSort Cell.precedes := by
  have hshares : shares (ε := ε) dim clips (Striped.placed 0 os) = (indexed clips).mapM fun p =>
      share dim p.2 ((Striped.present cells os).flatMap
        fun r => (r.2.filter fun o => o.1 = p.1).map (·.2)) := by
    refine mapM_congr fun p _ => ?_
    have h := congrArg (List.flatMap fun q : Option (Cell ρ α) × List (Nat × α) =>
      (q.2.filter fun o => o.1 = p.1).map (·.2)) (lookup_placed hlen)
    rw [List.flatMap_map, List.flatMap_map] at h
    exact congrArg (share dim p.2) h
  unfold weighted weighLit
  rw [hshares]
  cases (indexed clips).mapM fun p => share (ε := ε) dim p.2 ((Striped.present cells os).flatMap
      fun r => (r.2.filter fun o => o.1 = p.1).map (·.2)) with
  | error e => rfl
  | ok shares =>
    refine (congrArg (fun y => y >>= fun kept => pure ((kept.filterMap id).mergeSort
      Cell.precedes)) (kept_placed hlen (cellWeight clips.toArray shares.toArray total))).trans ?_
    change _ = (((Striped.present cells os).mapM fun r => (cellWeight (ε := ε) clips.toArray
      shares.toArray total r.2).map fun w => (r.1, w)).map _).map _
    cases (Striped.present cells os).mapM fun r =>
        (cellWeight (ε := ε) clips.toArray shares.toArray total r.2).map fun w => (r.1, w) with
    | error e => rfl
    | ok weights =>
      change Except.ok (((weights.map positive).filterMap id).mergeSort _) = _
      rw [List.filterMap_map]
      rfl

theorem weigh_eq_weighLit (h0 : ¬ (0 : α) < 0) (dim : Int) {clips : List (Clip ρ α)} (total : α)
    {rows : List (Cell ρ α × List (Option α))} (hrows : ∀ r ∈ rows, r.2.length = clips.length) :
    (weigh (ε := ε) dim clips total rows).map (List.filterMap positive) =
      weighLit dim clips total (rows.filterMap litRow) := by
  unfold weigh weighLit
  simp only [column_litRow]
  cases hshares : (indexed clips).mapM fun p => share (ε := ε) dim p.2 (column p.1 rows) with
  | error e => rfl
  | ok shares =>
    have hlen := length_result hshares
    exact mapM_rowWeight h0 (by simp [hlen, indexed]) total hrows

/-- The second stage, with the index and without it. -/
theorem overlapsOf_weighted [Region.Lossless ρ] (h0 : ¬ (0 : α) < 0) {shape : Shape ρ}
    {data : Dataset ρ α} {clips : List (Clip ρ α)}
    (hclips : clipsOfAll (ε := ε) shape data = .ok clips) (dim : Int) (total : α)
    (grid : Grid ρ α) :
    (overlapsOf (ε := ε) dim clips (grid.near shape.footprint) >>=
        weighted (grid.near shape.footprint) clips dim total) =
      (table dim clips grid.cells >>= weigh dim clips total).map fun weights =>
        (weights.filterMap positive).mergeSort Cell.precedes := by
  have hnear := table_of_near hclips dim grid
  rw [overlapsOf_eq_table]
  cases hfew : table (ε := ε) dim clips (grid.near shape.footprint) with
  | error e =>
    cases hall : table (ε := ε) dim clips grid.cells with
    | error e' =>
      rw [hfew, hall] at hnear
      rw [Except.error.inj hnear]
      rfl
    | ok all =>
      rw [hfew, hall] at hnear
      cases hnear
  | ok few =>
    cases hall : table (ε := ε) dim clips grid.cells with
    | error e' =>
      rw [hfew, hall] at hnear
      cases hnear
    | ok all =>
      rw [hfew, hall] at hnear
      have hlit : few.filterMap litRow = all.filterMap litRow := Except.ok.inj hnear
      have hlen : ∀ r ∈ all, r.2.length = clips.length := fun r hr =>
        length_result (mapM_overlap_of_mem hall hr)
      change weighted (grid.near shape.footprint) clips dim total
        (Striped.placed 0 (few.map fun r => (litRow r).map (·.2))) =
          (weigh dim clips total all).map _
      rw [← cells_of_table hfew, weighted_placed (by simp), present_litRow, hlit, ← weigh_eq_weighLit h0 _ _ hlen]
      cases weigh (ε := ε) dim clips total all <;> rfl

end Weights

variable [Zero α] [One α] [Mul α] [Div α] [LT α] [LE α] [DecidableLT α] [DecidableLE α] [BEq α]
  [Tally α]

/-- What an allocation comes to. -/
structure Survey (ρ α : Type) where
  covered : Bool
  totalWeight : α
  weights : List (Cell ρ α × α)

/-- Every granule is clipped, and every clip is intersected with every cell of the grid. -/
def survey (shape : Shape ρ) (grid : Grid ρ α) (data : Dataset ρ α) :
    Except (Fault ε) (Survey ρ α) := do
  let covered ← grid.covers shape.footprint
  let clips ← clipsOfAll shape data
  let total ← Fault.add (clips.map (·.contribution))
  if total == 0 then return ⟨false, 0, grid.cells.map fun c => (c, 0)⟩
  else
    let rows ← table data.dimension clips grid.cells
    let weights ← weigh data.dimension clips total rows
    return ⟨covered, total, weights⟩

theorem survey_cells {shape : Shape ρ} {grid : Grid ρ α} {data : Dataset ρ α} {s : Survey ρ α}
    (h : survey shape grid data = .ok s) : s.weights.map (·.1) = grid.cells := by
  obtain ⟨covered, -, h⟩ := bind_eq_ok.mp h
  obtain ⟨clips, -, h⟩ := bind_eq_ok.mp h
  obtain ⟨total, -, h⟩ := bind_eq_ok.mp h
  split at h
  · cases h
    rw [List.map_map]
    exact List.map_id grid.cells
  · obtain ⟨rows, hrows, h⟩ := bind_eq_ok.mp h
    obtain ⟨weights, hweights, h⟩ := bind_eq_ok.mp h
    cases h
    obtain ⟨shares, -, hweights⟩ := bind_eq_ok.mp hweights
    rw [← cells_of_table hrows]
    refine map_result hweights fun r w hw => ?_
    obtain ⟨v, -, rfl⟩ := map_eq_ok.mp hw
    rfl

/-- Allocation lists the cells that the survey finds to weigh something, rows first. -/
theorem sequential_agree_survey [Region.Lossless ρ] (h0 : ¬ (0 : α) < 0) (shape : Shape ρ)
    (grid : Grid ρ α) (data : Dataset ρ α) :
    Agree (fun a s => a = ⟨(s.weights.filterMap positive).mergeSort Cell.precedes, s.covered,
        grid.nx, grid.ny, some shape, s.totalWeight⟩)
      (sequential shape grid data) (survey shape grid data) := by
  unfold sequential survey
  refine Agree.bind (Agree.refl _) ?_
  rintro covered _ - - rfl
  rw [clipsOf_eq_clipsOfAll]
  refine Agree.bind (Agree.refl _) ?_
  rintro clips _ hclips - rfl
  refine Agree.bind (Agree.refl _) ?_
  rintro total _ - - rfl
  split
  · have hnone : (grid.cells.map fun c => (c, (0 : α))).filterMap positive = [] := by
      refine List.filterMap_eq_nil_iff.mpr fun c hc => ?_
      obtain ⟨cell, -, rfl⟩ := List.mem_map.mp hc
      exact positive_eq_none h0
    change nothing shape grid = _
    rw [hnone, List.mergeSort_nil]
    rfl
  · rw [← bind_assoc, overlapsOf_weighted h0 hclips, ← bind_assoc]
    cases table (ε := ε) data.dimension clips grid.cells >>= weigh data.dimension clips total with
    | error e => trivial
    | ok weights => exact rfl

end Engine

end Gridding
