import Gridding.Proofs.Allocation.Merge

/-!
# Merging in memory

The cells of an allocation are objects, which several allocations may share. `mergeStored` merges
allocations that know their cells by places in a memory: one allocation after the other, it compares
the sizes and then copies the cells. Nothing but copies is added to the memory, also if merging
fails half-way, so that every allocation reads as before; and the merged one reads as what `merge`
gives.
-/

namespace Gridding

variable {ρ α : Type}

/-- An allocation whose cells are kept in a memory. -/
structure Stored (ρ α : Type) where
  places : List Nat
  covered : Bool
  nx : Int
  ny : Int
  shape : Option (Shape ρ)
  totalWeight : α

namespace Stored

/-- What stands at the given places, if all of them are in use. -/
def fetch (memory : List (Cell ρ α)) (places : List Nat) : Option (List (Cell ρ α)) :=
  places.mapM fun i => memory[i]?

/-- The allocation as it reads in a memory. -/
def read (memory : List (Cell ρ α)) (s : Stored ρ α) : Option (Allocation ρ α) :=
  (fetch memory s.places).map fun cells =>
    ⟨cells, s.covered, s.nx, s.ny, s.shape, s.totalWeight⟩

theorem fetch_append {memory cells : List (Cell ρ α)} {places : List Nat}
    (h : fetch memory places = some cells) (new : List (Cell ρ α)) :
    fetch (memory ++ new) places = some cells := by
  rw [fetch, mapM_eq_some_iff] at h ⊢
  rw [← h]
  refine List.map_congr_left fun i hi => ?_
  have hmem : memory[i]? ∈ cells.map some := h ▸ List.mem_map_of_mem hi
  obtain ⟨c, -, hc⟩ := List.mem_map.mp hmem
  exact List.getElem?_append_left (List.getElem?_eq_some_iff.mp hc.symm).1

/-- More cells in the memory do not change how an allocation reads. -/
theorem read_append {memory : List (Cell ρ α)} {s : Stored ρ α} {a : Allocation ρ α}
    (h : s.read memory = some a) (new : List (Cell ρ α)) : s.read (memory ++ new) = some a := by
  obtain ⟨cells, hcells, rfl⟩ := Option.map_eq_some_iff.mp h
  rw [read, fetch_append hcells new]
  rfl

theorem map_read_append {memory : List (Cell ρ α)} {stored : List (Stored ρ α)}
    {results : List (Allocation ρ α)} (h : stored.map (read memory) = results.map some)
    (new : List (Cell ρ α)) : stored.map (read (memory ++ new)) = results.map some := by
  rw [← h]
  refine List.map_congr_left fun s hs => ?_
  have hmem : s.read memory ∈ results.map some := h ▸ List.mem_map_of_mem hs
  obtain ⟨a, -, ha⟩ := List.mem_map.mp hmem
  rw [read_append ha.symm, ha]

/-- New cells read at the places from the end of the memory on. -/
theorem fetch_new (memory new : List (Cell ρ α)) :
    fetch (memory ++ new) (List.range' memory.length new.length) = some new := by
  rw [fetch, mapM_eq_some_iff]
  refine List.ext_getElem (by simp) fun j hj hj' => ?_
  simp at hj
  simp [hj]

theorem fetch_concat {memory cells : List (Cell ρ α)} {places : List Nat}
    (h : fetch memory places = some cells) (new : List (Cell ρ α)) :
    fetch (memory ++ new) (places ++ List.range' memory.length new.length) =
      some (cells ++ new) := by
  have hold := fetch_append h new
  have hnew := fetch_new memory new
  rw [fetch, mapM_eq_some_iff] at hold hnew ⊢
  rw [List.map_append, hold, hnew, List.map_append]

section Copies

variable [Mul α]

/-- Copies of the cells at some places, their weights under a factor. -/
def copies (memory : List (Cell ρ α)) (places : List Nat) (factor : α) : List (Cell ρ α) :=
  (places.filterMap fun i => memory[i]?).map fun c => c.withWeight (c.weight * factor)

theorem copies_of_read {memory : List (Cell ρ α)} {s : Stored ρ α} {a : Allocation ρ α}
    (h : s.read memory = some a) (factor : α) :
    copies memory s.places factor = a.scaledCells factor := by
  obtain ⟨cells, hcells, rfl⟩ := Option.map_eq_some_iff.mp h
  rw [fetch, mapM_eq_some_iff] at hcells
  have hfound : (s.places.filterMap fun i => memory[i]?) = cells := by
    have hpresent := congrArg (List.filterMap id) hcells
    rwa [List.filterMap_map, List.filterMap_map, Function.id_comp, Function.id_comp,
      List.filterMap_some] at hpresent
  rw [copies, hfound]
  rfl

end Copies

end Stored

section Merging

variable [Zero α] [Add α] [Mul α]

/-- Copies the cells of one allocation after the other, unless its size is another one. The places
of the copies and the total weight so far are handed on. -/
def mergeLoop (nx ny : Int) : List (Stored ρ α × α) → List (Cell ρ α) → List Nat → α →
    List (Cell ρ α) × Except MergeError (List Nat × α)
  | [], memory, places, total => (memory, .ok (places, total))
  | (s, factor) :: rest, memory, places, total =>
    if s.nx ≠ nx || s.ny ≠ ny then (memory, .error (.differentGrids nx ny s.nx s.ny))
    else
      let new := Stored.copies memory s.places factor
      mergeLoop nx ny rest (memory ++ new) (places ++ List.range' memory.length new.length)
        (total + factor * s.totalWeight)

/-- Merges allocations in a memory; the memory is given back in any case. -/
def mergeStored (memory : List (Cell ρ α)) (stored : List (Stored ρ α)) (multipliers : List α) :
    List (Cell ρ α) × Except MergeError (Stored ρ α) :=
  match stored with
  | [] => (memory, .error .nothing)
  | first :: _ =>
    if stored.length ≠ multipliers.length then
      (memory, .error (.multiplierCount stored.length multipliers.length))
    else
      let out := mergeLoop first.nx first.ny (stored.zip multipliers) memory [] 0
      (out.1, out.2.map fun r => ⟨r.1, first.covered, first.nx, first.ny, first.shape, r.2⟩)

omit [Zero α] in
theorem prefix_mergeLoop (nx ny : Int) (pairs : List (Stored ρ α × α)) (memory : List (Cell ρ α))
    (places : List Nat) (total : α) : memory <+: (mergeLoop nx ny pairs memory places total).1 := by
  induction pairs generalizing memory places total with
  | nil => exact List.prefix_refl memory
  | cons p pairs ih =>
    rw [mergeLoop]
    split
    · exact List.prefix_refl memory
    · exact (List.prefix_append memory _).trans (ih _ _ _)

/-- The memory only grows, whether merging succeeds or not. -/
theorem prefix_mergeStored (memory : List (Cell ρ α)) (stored : List (Stored ρ α))
    (multipliers : List α) : memory <+: (mergeStored memory stored multipliers).1 := by
  unfold mergeStored
  split
  · exact List.prefix_refl memory
  · split
    · exact List.prefix_refl memory
    · exact prefix_mergeLoop _ _ _ _ _ _

theorem read_mergeStored {memory : List (Cell ρ α)} {s : Stored ρ α} {a : Allocation ρ α}
    (h : s.read memory = some a) (stored : List (Stored ρ α)) (multipliers : List α) :
    s.read (mergeStored memory stored multipliers).1 = some a := by
  obtain ⟨new, hnew⟩ := prefix_mergeStored memory stored multipliers
  rw [← hnew]
  exact Stored.read_append h new

omit [Zero α] in
/-- The loop stops at the first allocation of another size; else the copies read as the cells of all
allocations under their factors. -/
theorem mergeLoop_reads (nx ny : Int) {memory cells : List (Cell ρ α)} {places : List Nat}
    (hplaces : Stored.fetch memory places = some cells) {stored : List (Stored ρ α)}
    {results : List (Allocation ρ α)} (h : stored.map (Stored.read memory) = results.map some)
    {multipliers : List α} (hlen : results.length = multipliers.length) (total : α) :
    (mergeLoop nx ny (stored.zip multipliers) memory places total).2.map (fun r =>
        (Stored.fetch (mergeLoop nx ny (stored.zip multipliers) memory places total).1 r.1, r.2)) =
      match results.find? fun a => a.nx ≠ nx || a.ny ≠ ny with
      | some other => .error (.differentGrids nx ny other.nx other.ny)
      | none => .ok (some (cells ++ (results.zip multipliers).flatMap fun p =>
          p.1.scaledCells p.2), (results.zip multipliers).foldl
            (fun sum p => sum + p.2 * p.1.totalWeight) total) := by
  induction stored generalizing memory cells places results multipliers total with
  | nil =>
    obtain rfl : results = [] := by simpa using h.symm
    simp [mergeLoop, Except.map, hplaces]
  | cons s stored ih =>
    obtain ⟨a, results, rfl, hread, hrest⟩ := List.map_eq_cons_iff.mp h.symm
    obtain ⟨m, multipliers, rfl⟩ := List.exists_cons_of_length_eq_add_one hlen.symm
    have hread := hread.symm
    have hsize : s.nx = a.nx ∧ s.ny = a.ny ∧ s.totalWeight = a.totalWeight := by
      obtain ⟨cells, -, rfl⟩ := Option.map_eq_some_iff.mp hread
      exact ⟨rfl, rfl, rfl⟩
    rw [List.zip_cons_cons, List.zip_cons_cons, mergeLoop, hsize.1, hsize.2.1, hsize.2.2,
      Stored.copies_of_read hread]
    cases hother : a.nx ≠ nx || a.ny ≠ ny with
    | true =>
      simp only [List.find?_cons, hother, if_true]
      rfl
    | false =>
      have hloop := ih (Stored.fetch_concat hplaces (a.scaledCells m))
        (Stored.map_read_append hrest.symm _) (by simpa using hlen) (total + m * a.totalWeight)
      simp only [List.find?_cons, hother, Bool.false_eq_true, if_false, List.flatMap_cons,
        List.foldl_cons, hloop, List.append_assoc]

/-- Merging in a memory reads as merging does, and fails as it does. -/
theorem mergeStored_reads {memory : List (Cell ρ α)} {stored : List (Stored ρ α)}
    {results : List (Allocation ρ α)} (h : stored.map (Stored.read memory) = results.map some)
    (multipliers : List α) :
    (mergeStored memory stored multipliers).2.map
        (Stored.read (mergeStored memory stored multipliers).1) =
      (Allocation.merge results multipliers).map some := by
  cases stored with
  | nil =>
    obtain rfl : results = [] := by simpa using h.symm
    rfl
  | cons first stored =>
    obtain ⟨a, results, rfl, hfirst, -⟩ := List.map_eq_cons_iff.mp h.symm
    have hlength : (first :: stored).length = (a :: results).length := by
      simpa using congrArg List.length h
    obtain ⟨cells, -, rfl⟩ := Option.map_eq_some_iff.mp hfirst.symm
    by_cases hlen : (first :: stored).length = multipliers.length
    · have hempty : Stored.fetch memory [] = some ([] : List (Cell ρ α)) := rfl
      have hloop := mergeLoop_reads first.nx first.ny hempty h (hlength.symm.trans hlen) 0
      rw [mergeStored, if_neg (not_not.mpr hlen), Allocation.merge,
        if_neg (not_not.mpr (hlength.symm.trans hlen))]
      generalize mergeLoop first.nx first.ny ((first :: stored).zip multipliers) memory [] 0 = out
        at hloop ⊢
      have hread : (out.2.map fun r => (⟨r.1, first.covered, first.nx, first.ny, first.shape, r.2⟩ :
            Stored ρ α)).map (Stored.read out.1) =
          (out.2.map fun r => (Stored.fetch out.1 r.1, r.2)).map fun r => r.1.map fun cells =>
            ⟨cells, first.covered, first.nx, first.ny, first.shape, r.2⟩ := by
        cases out.2 <;> rfl
      refine hread.trans ?_
      rw [hloop]
      split
      all_goals
        rename_i hfind
        simp only [hfind]
        rfl
    · rw [mergeStored, if_pos hlen, Allocation.merge, if_pos (hlength ▸ hlen), hlength]
      rfl

end Merging

end Gridding
