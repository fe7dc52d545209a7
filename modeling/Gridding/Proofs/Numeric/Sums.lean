import Mathlib

/-!
# Sums of lists

Sums over two lists in either order, sums of the values that are there, when sums of lesser terms are
equal to sums of greater ones, and when sums are positive.
-/

namespace Gridding

variable {ι κ α : Type}

section AddCommMonoid

variable [AddCommMonoid α]

theorem sum_map_comm (xs : List ι) (ys : List κ) (f : ι → κ → α) :
    (xs.map fun x => (ys.map fun y => f x y).sum).sum =
      (ys.map fun y => (xs.map fun x => f x y).sum).sum := by
  simpa using Multiset.sum_map_sum_map (xs : Multiset ι) (ys : Multiset κ) (f := f)

theorem sum_flatMap (xs : List ι) (f : ι → List α) :
    (xs.flatMap f).sum = (xs.map fun x => (f x).sum).sum := by
  rw [List.flatMap_def, List.sum_flatten, List.map_map]
  rfl

theorem sum_filterMap (xs : List ι) (o : ι → Option α) :
    (xs.filterMap o).sum = (xs.map fun x => (o x).getD 0).sum := by
  induction xs with
  | nil => rfl
  | cons x xs ih => cases h : o x <;> simp [h, ih]

theorem sum_filter (xs : List ι) (p : ι → Bool) (f : ι → α) :
    ((xs.filter p).map f).sum = (xs.map fun x => if p x then f x else 0).sum := by
  induction xs with
  | nil => rfl
  | cons x xs ih => cases h : p x <;> simp [h, ih]

end AddCommMonoid

theorem sum_map_eq_iff_of_le [AddCommGroup α] [LinearOrder α] [IsOrderedAddMonoid α]
    {xs : List ι} {f g : ι → α} (h : ∀ x ∈ xs, f x ≤ g x) :
    (xs.map f).sum = (xs.map g).sum ↔ ∀ x ∈ xs, f x = g x := by
  constructor
  · intro heq x hx
    by_contra hne
    exact (List.sum_lt_sum f g h ⟨x, hx, lt_of_le_of_ne (h x hx) hne⟩).ne heq
  · intro heq
    rw [List.map_congr_left heq]

theorem sum_pos_iff [AddCommGroup α] [LinearOrder α] [IsOrderedAddMonoid α] {xs : List ι} {f : ι → α}
    (h : ∀ x ∈ xs, 0 ≤ f x) : 0 < (xs.map f).sum ↔ ∃ x ∈ xs, 0 < f x := by
  constructor
  · intro hpos
    by_contra! hnone
    refine hpos.not_ge ((List.sum_le_sum hnone).trans_eq ?_)
    simp
  · rintro ⟨x, hx, hpos⟩
    refine hpos.trans_le (List.single_le_sum (fun y hy => ?_) (f x) (List.mem_map_of_mem hx))
    obtain ⟨z, hz, rfl⟩ := List.mem_map.mp hy
    exact h z hz

end Gridding
