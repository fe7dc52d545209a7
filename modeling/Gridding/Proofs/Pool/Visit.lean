import Gridding.Proofs.Pool.Schedule
import Mathlib.Data.List.Pairwise
import Mathlib.Data.List.ReduceOption

/-!
# Striped work, item by item

A visit to a list of items is the computation over the list with what gives nothing left out. The
results of the stripes, gathered by items, are those of a visit to all items in order: this holds
for any outcome the work can come to, and if one fails, so does the other.
-/

namespace Gridding.Striped

variable {ε β γ : Type} {f : Nat → Except ε (Option β)}

/-- The values that are there, each with its place counted from `k` on. -/
def placed (k : Nat) : List (Option β) → List (Nat × β)
  | [] => []
  | none :: os => placed (k + 1) os
  | some b :: os => (k, b) :: placed (k + 1) os

theorem map_snd_placed (k : Nat) (os : List (Option β)) :
    (placed k os).map (·.2) = os.reduceOption := by
  induction os generalizing k with
  | nil => rfl
  | cons o os ih => cases o <;> simp [placed, ih]

theorem lt_of_mem_placed {k : Nat} {os : List (Option β)} {p : Nat × β} (h : p ∈ placed k os) :
    k ≤ p.1 := by
  induction os generalizing k with
  | nil => cases h
  | cons o os ih =>
    cases o with
    | none => exact Nat.le_of_succ_le (ih h)
    | some b =>
      rcases List.mem_cons.mp h with rfl | h
      · exact Nat.le_refl k
      · exact Nat.le_of_succ_le (ih h)

/-- The values at one place. -/
theorem filter_placed (k i : Nat) (os : List (Option β)) :
    ((placed k os).filter fun p => p.1 = k + i).map (·.2) = os[i]?.join.toList := by
  induction os generalizing k i with
  | nil => rfl
  | cons o os ih =>
    cases i with
    | zero =>
      have hrest : (placed (k + 1) os).filter (fun p => p.1 = k) = [] := by
        refine List.filter_eq_nil_iff.mpr fun p hp => ?_
        have := lt_of_mem_placed hp
        simp only [decide_eq_true_eq]
        omega
      cases o <;> simp [placed, hrest]
    | succ i =>
      have hplace : k + (i + 1) = k + 1 + i := by omega
      have hk : k ≠ k + 1 + i := by omega
      cases o <;> simp [placed, hplace, hk, ih]

/-- The values that are there, each with what stands at its place in another list. -/
def present {γ : Type} (xs : List γ) (os : List (Option β)) : List (γ × β) :=
  (xs.zip os).filterMap fun p => p.2.map fun b => (p.1, b)

@[simp]
theorem present_cons_none {γ : Type} (x : γ) (xs : List γ) (os : List (Option β)) :
    present (x :: xs) (none :: os) = present xs os := rfl

@[simp]
theorem present_cons_some {γ : Type} (x : γ) (xs : List γ) (b : β) (os : List (Option β)) :
    present (x :: xs) (some b :: os) = (x, b) :: present xs os := rfl

theorem present_map {γ δ : Type} (f : γ → δ) (o : γ → Option β) (xs : List γ) :
    present (xs.map f) (xs.map o) = xs.filterMap fun x => (o x).map fun b => (f x, b) := by
  induction xs with
  | nil => rfl
  | cons x xs ih => cases h : o x <;> simp [h, ih]

theorem present_sublist {γ : Type} (xs : List γ) (os : List (Option β)) :
    ((present xs os).map (·.1)).Sublist xs := by
  induction xs generalizing os with
  | nil => exact List.Sublist.slnil
  | cons x xs ih =>
    cases os with
    | nil => exact List.nil_sublist _
    | cons o os =>
      cases o with
      | none => exact (ih os).cons x
      | some b => exact (ih os).cons_cons x

/-- Working with places is working with what stands at the places. -/
theorem map_placed {γ δ : Type} {F : γ → β → δ} {G : Nat × β → δ} {k : Nat} {xs : List γ}
    {os : List (Option β)} (hlen : os.length = xs.length)
    (h : ∀ j (hj : j < xs.length) b, G (k + j, b) = F xs[j] b) :
    (placed k os).map G = (present xs os).map fun p => F p.1 p.2 := by
  induction xs generalizing k os with
  | nil =>
    rw [List.length_nil, List.length_eq_zero_iff] at hlen
    rw [hlen]
    rfl
  | cons x xs ih =>
    obtain ⟨o, os, rfl⟩ := List.exists_cons_of_length_eq_add_one hlen
    have hx (b : β) : G (k, b) = F x b := h 0 (by simp) b
    have hrest := ih (k := k + 1) (by simpa using hlen : os.length = xs.length) fun j hj b => by
      have := h (j + 1) (by simpa using hj) b
      rwa [Nat.add_right_comm, Nat.add_assoc k j 1]
    cases o <;> simp [placed, hx, hrest]

/-- What is found at an item, if its computation gives something. -/
def found (f : Nat → Except ε (Option β)) (i : Nat) : Option (Nat × β) :=
  match f i with
  | .ok (some b) => some (i, b)
  | _ => none

theorem fst_of_found {i : Nat} {p : Nat × β} (h : found f i = some p) : p.1 = i := by
  unfold found at h
  split at h
  · cases h
    rfl
  · cases h

theorem visit_eq_ok {is : List Nat} (h : ∀ i ∈ is, ∃ b, f i = .ok b) :
    visit f is = .ok (is.filterMap (found f)) := by
  induction is with
  | nil => rfl
  | cons i is ih =>
    obtain ⟨b, hb⟩ := h i List.mem_cons_self
    have hrest := ih fun j hj => h j (List.mem_cons_of_mem i hj)
    cases b <;> simp [visit, hb, hrest, found, bind, Except.bind, pure, Except.pure]

theorem ok_of_visit_eq_ok {is : List Nat} {r : List (Nat × β)} (h : visit f is = .ok r) :
    ∀ i ∈ is, ∃ b, f i = .ok b := by
  induction is generalizing r with
  | nil => simp
  | cons i is ih =>
    rw [visit] at h
    obtain ⟨b, hb, h⟩ := bind_eq_ok.mp h
    obtain ⟨rest, hrest, -⟩ := bind_eq_ok.mp h
    rintro j (_ | ⟨_, hj⟩)
    · exact ⟨b, hb⟩
    · exact ih hrest j hj

/-- Sorting by items puts back into order what is found at distinct items. -/
theorem gather_eq_of_perm {parts : List (List (Nat × β))} {n : Nat}
    (h : parts.flatten.Perm ((List.range n).filterMap (found f))) :
    gather parts = (List.range n).filterMap (found f) := by
  have hsorted : ((List.range n).filterMap (found f)).Pairwise fun a b => a.1 ≤ b.1 := by
    refine List.Pairwise.filterMap _ (fun i j hij a ha b hb => ?_) List.pairwise_lt_range
    rw [fst_of_found ha, fst_of_found hb]
    exact Nat.le_of_lt hij
  have hself : ∀ p ∈ (List.range n).filterMap (found f), found f p.1 = some p := by
    intro p hp
    obtain ⟨i, -, hi⟩ := List.mem_filterMap.mp hp
    rwa [fst_of_found hi]
  have hperm : (gather parts).Perm ((List.range n).filterMap (found f)) :=
    (List.mergeSort_perm _ _).trans h
  have hgather : (gather parts).Pairwise fun a b => a.1 ≤ b.1 := by
    refine (List.pairwise_mergeSort (fun a b c => ?_) (fun a b => ?_) parts.flatten).imp fun h => ?_
    · simpa using Nat.le_trans
    · simpa using Nat.le_total a.1 b.1
    · simpa using h
  refine hperm.eq_of_pairwise (fun a b ha hb hab hba => ?_) hgather hsorted
  have ha' := hself a (hperm.mem_iff.mp ha)
  have hb' := hself b hb
  rw [Nat.le_antisymm hab hba, hb', Option.some_inj] at ha'
  exact ha'.symm

/-- Whatever the outcome of the stripes, gathering it agrees with a visit to all items in order. -/
theorem Outcome.gather_agree {items workers : Int} {r : Except ε (List (List (Nat × β)))}
    (h : Outcome (itemWorker f) (stripes items workers) r) :
    Agree (fun parts all => gather parts = all) r (visit f (List.range items.toNat)) := by
  cases r with
  | error e =>
    obtain ⟨stripe, hs, he⟩ := List.mem_map.mp h
    cases hv : visit f (List.range items.toNat) with
    | error e' => trivial
    | ok all =>
      -- a stripe only holds items of the visit, and these all succeed
      have hok : ∀ i ∈ stripe, ∃ b, f i = .ok b := fun i hi =>
        ok_of_visit_eq_ok hv i <| List.mem_range.mpr <| mem_flatten_stripes.mp <|
          List.mem_flatten_of_mem hs hi
      have : visit f stripe = .error e := he
      rw [visit_eq_ok hok] at this
      cases this
  | ok parts =>
    have hperm : (parts.map Except.ok).Perm ((stripes items workers).map (visit f)) := h
    have hstripe : ∀ stripe ∈ stripes items workers, ∀ i ∈ stripe, ∃ b, f i = .ok b := by
      intro stripe hs
      have hmem := hperm.mem_iff.mpr (List.mem_map_of_mem (f := visit f) hs)
      obtain ⟨part, -, hpart⟩ := List.mem_map.mp hmem
      exact ok_of_visit_eq_ok hpart.symm
    have hok : ∀ i ∈ List.range items.toNat, ∃ b, f i = .ok b := by
      intro i hi
      rw [List.mem_range, ← @mem_flatten_stripes items workers] at hi
      obtain ⟨stripe, hs, hi⟩ := List.mem_flatten.mp hi
      exact hstripe stripe hs i hi
    have hparts : parts.Perm ((stripes items workers).map fun s => s.filterMap (found f)) := by
      have heq : (stripes items workers).map (visit f) =
          ((stripes items workers).map fun s => s.filterMap (found f)).map Except.ok := by
        rw [List.map_map]
        exact List.map_congr_left fun s hs => visit_eq_ok (hstripe s hs)
      rw [heq] at hperm
      exact (List.map_perm_map_iff fun _ _ => Except.ok.inj).mp hperm
    rw [visit_eq_ok hok]
    refine gather_eq_of_perm (hparts.flatten.trans ?_)
    have hflat : ((stripes items workers).map fun s => s.filterMap (found f)).flatten =
        (stripes items workers).flatten.filterMap (found f) := by
      rw [List.filterMap_flatten]
    rw [hflat]
    exact (flatten_stripes_perm items workers).filterMap _

theorem visit_range' {F : γ → Except ε (Option β)} {xs : List γ} {k : Nat}
    (hf : ∀ j (hj : j < xs.length), f (k + j) = F xs[j]) :
    visit f (List.range' k xs.length) = (xs.mapM F).map (placed k) := by
  induction xs generalizing k with
  | nil => rfl
  | cons x xs ih =>
    have hx : f k = F x := hf 0 (by simp)
    have hrest := ih (k := k + 1) fun j hj => by
      have := hf (j + 1) (by simpa using hj)
      rwa [Nat.add_right_comm, Nat.add_assoc k j 1]
    rw [List.length_cons, List.range'_succ, visit, hx, hrest, List.mapM_cons]
    cases F x with
    | error e => rfl
    | ok b =>
      cases xs.mapM F with
      | error e => rfl
      | ok bs => cases b <;> rfl

/-- Visiting the places of a list is computing over the list. -/
theorem visit_range {F : γ → Except ε (Option β)} {xs : List γ}
    (hf : ∀ j (hj : j < xs.length), f j = F xs[j]) :
    visit f (List.range xs.length) = (xs.mapM F).map (placed 0) := by
  rw [List.range_eq_range']
  exact visit_range' fun j hj => by rw [Nat.zero_add, hf j hj]

end Gridding.Striped
