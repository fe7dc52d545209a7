import Gridding.Allocation.Dense
import Gridding.Proofs.Grid.Accepted
import Mathlib.Tactic.Common

/-!
# Entries of tables

If all cells of an allocation lie in the table, counted from zero, then each entry is made up of the
weights of the cells at that very place.
-/

namespace Gridding

variable {ρ α : Type}

/-- Does the cell lie in a table with so many columns and rows, counted from zero? -/
def Cell.Within (nx ny : Int) (c : Cell ρ α) : Prop :=
  0 ≤ c.row ∧ c.row < ny ∧ 0 ≤ c.col ∧ c.col < nx

instance (nx ny : Int) (c : Cell ρ α) : Decidable (c.Within nx ny) :=
  inferInstanceAs (Decidable (_ ∧ _ ∧ _ ∧ _))

namespace Allocation

theorem placeCell_of_within {nx ny : Int} {c : Cell ρ α} (h : c.Within nx ny) :
    placeCell? nx ny c = some (c.row.toNat, c.col.toNat, c.weight) := by
  obtain ⟨hrow, hrow', hcol, hcol'⟩ := h
  rw [placeCell?, wrapIndex?, wrapIndex?, if_pos ⟨hrow, hrow'⟩, if_pos ⟨hcol, hcol'⟩]

theorem mapM_placeCell_of_within {nx ny : Int} {cells : List (Cell ρ α)}
    (h : ∀ c ∈ cells, c.Within nx ny) :
    cells.mapM (placeCell? nx ny) =
      some (cells.map fun c => (c.row.toNat, c.col.toNat, c.weight)) := by
  induction cells with
  | nil => rfl
  | cons c cells ih =>
    obtain ⟨hc, hcells⟩ := List.forall_mem_cons.mp h
    rw [List.mapM_cons, placeCell_of_within hc, ih hcells]
    rfl

section Entries

variable [Zero α] [Add α]

/-- The weights of the cells at a place added up, in their order. -/
def addedAt (a : Allocation ρ α) (row col : Int) : α :=
  (a.cells.filter fun c => c.row = row && c.col = col).foldl (fun sum c => sum + c.weight) 0

theorem entry_of_within {a : Allocation ρ α} (h : ∀ c ∈ a.cells, c.Within a.nx a.ny)
    (row col : Nat) :
    entry (a.cells.map fun c => (c.row.toNat, c.col.toNat, c.weight)) row col =
      a.addedAt row col := by
  rw [entry, addedAt, List.filter_map, List.foldl_map]
  refine congrArg (List.foldl _ 0) (List.filter_congr fun c hc => ?_)
  obtain ⟨hrow, -, hcol, -⟩ := h c hc
  have hiff : c.row.toNat = row ∧ c.col.toNat = col ↔ c.row = row ∧ c.col = col := by omega
  exact Bool.eq_iff_iff.mpr (by simpa using hiff)

theorem addedAt_of_mem {a : Allocation ρ α} (h : (a.cells.map (·.place)).Nodup) {c : Cell ρ α}
    (hc : c ∈ a.cells) : a.addedAt c.row c.col = 0 + c.weight := by
  rw [addedAt, Grid.filter_place h hc]
  rfl

theorem addedAt_of_not_mem {a : Allocation ρ α} {row col : Int}
    (h : (row, col) ∉ a.cells.map (·.place)) : a.addedAt row col = 0 := by
  have hnone : a.cells.filter (fun c => c.row = row && c.col = col) = [] := by
    refine List.filter_eq_nil_iff.mpr fun c hc hsame => h (List.mem_map.mpr ⟨c, hc, ?_⟩)
    simpa [Cell.place] using hsame
  rw [addedAt, hnone]
  rfl

end Entries

/-- The table with so many columns and rows and with the given entries. -/
def tableOf (nx ny : Int) (f : Int → Int → α) : List (List α) :=
  (List.range ny.toNat).map fun r : Nat => (List.range nx.toNat).map fun c : Nat => f r c

theorem map_tableOf (nx ny : Int) (f : Int → Int → α) (g : α → α) :
    (tableOf nx ny f).map (List.map g) = tableOf nx ny fun r c => g (f r c) := by
  simp only [tableOf, List.map_map, Function.comp_def]

variable [Zero α] [One α] [Add α] [Mul α] [Div α] [BEq α] [Tally α]

/-- The sum of the entries before the table is scaled. -/
def tableTotal (a : Allocation ρ α) : α := Tally.tableSum (tableOf a.nx a.ny a.addedAt).flatten

/-- The entry of a place, scaled if the shape is covered. -/
def entryAt (a : Allocation ρ α) (row col : Int) : α :=
  if a.covered then a.addedAt row col * (1 / a.tableTotal) else a.addedAt row col

theorem dense_of_negative {a : Allocation ρ α} (h : a.nx < 0 ∨ a.ny < 0) :
    a.dense = .error .negativeSize := if_pos h

/-- The table of an allocation whose cells lie in it, place by place. -/
theorem dense_of_within {a : Allocation ρ α} (hsize : ¬ (a.nx < 0 ∨ a.ny < 0))
    (h : ∀ c ∈ a.cells, c.Within a.nx a.ny) :
    a.dense = .ok (if a.tableTotal == 0 then ⟨none, false⟩
      else ⟨some (tableOf a.nx a.ny a.entryAt), a.covered⟩) := by
  rw [dense, if_neg hsize, mapM_placeCell_of_within h]
  simp only [entry_of_within h]
  change (if a.tableTotal == 0 then _ else _) = _
  split
  · rfl
  · unfold entryAt
    cases a.covered with
    | false => rfl
    | true =>
      have hscale := map_tableOf a.nx a.ny a.addedAt (· * (1 / a.tableTotal))
      exact congrArg (fun rows => Except.ok (Dense.mk (some rows) true)) hscale

end Allocation

end Gridding
