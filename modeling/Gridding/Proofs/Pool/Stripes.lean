import Gridding.Pool.Striped
import Mathlib.Data.List.Basic
import Mathlib.Data.List.Nodup
import Mathlib.Data.List.Perm.Basic
import Mathlib.Tactic.Common

/-!
# Stripes share out the items

Worker `p` of `w` gets the items that leave the remainder `p` when divided by `w`, so that the
stripes together hold every item exactly once, for any number of items and of workers.
-/

namespace Gridding.Striped

theorem mem_stripe_iff {n step first i : Nat} (hs : 0 < step) :
    i ∈ stripe n step first ↔ i < n ∧ ∃ k, i = first + k * step := by
  have hbound (k : Nat) : k < (n - first + step - 1) / step ↔ first + k * step < n := by
    rw [Nat.lt_iff_add_one_le, Nat.le_div_iff_mul_le hs, Nat.add_one_mul]
    omega
  simp only [stripe, List.mem_map, List.mem_range, hbound]
  constructor
  · rintro ⟨k, hk, rfl⟩
    exact ⟨hk, k, rfl⟩
  · rintro ⟨hn, k, rfl⟩
    exact ⟨k, hn, rfl⟩

theorem mem_stripe_iff_mod {n count p i : Nat} (hp : p < count) :
    i ∈ stripe n count p ↔ i < n ∧ i % count = p := by
  rw [mem_stripe_iff (Nat.zero_lt_of_lt hp)]
  refine and_congr_right fun _ => ⟨?_, fun h => ?_⟩
  · rintro ⟨k, rfl⟩
    rw [Nat.add_mul_mod_self_right, Nat.mod_eq_of_lt hp]
  · exact ⟨i / count, by rw [← h, Nat.mul_comm, Nat.mod_add_div]⟩

theorem nodup_stripe {n step first : Nat} (hs : 0 < step) : (stripe n step first).Nodup := by
  refine List.nodup_range.map fun k l h => ?_
  exact Nat.eq_of_mul_eq_mul_right hs (Nat.add_left_cancel h)

theorem stripeCount_pos (items workers : Int) : 0 < stripeCount items workers := by
  simp only [stripeCount]
  omega

theorem nodup_flatten_stripes (items workers : Int) : (stripes items workers).flatten.Nodup := by
  unfold stripes
  split
  · simp
  · have hc := stripeCount_pos items workers
    rw [List.nodup_flatten]
    constructor
    · intro s hs
      obtain ⟨p, -, rfl⟩ := List.mem_map.mp hs
      exact nodup_stripe hc
    · -- an item on two stripes would leave two remainders
      rw [List.pairwise_map]
      refine List.nodup_range.imp_of_mem fun {p q} hp hq hne => ?_
      intro i hi hi'
      rw [mem_stripe_iff_mod (List.mem_range.mp hp)] at hi
      rw [mem_stripe_iff_mod (List.mem_range.mp hq)] at hi'
      exact hne (hi.2.symm.trans hi'.2)

theorem mem_flatten_stripes {items workers : Int} {i : Nat} :
    i ∈ (stripes items workers).flatten ↔ i < items.toNat := by
  unfold stripes
  split
  · simp only [List.flatten_nil, List.not_mem_nil, false_iff]
    omega
  · have hc := stripeCount_pos items workers
    simp only [List.mem_flatten, List.mem_map, List.mem_range]
    constructor
    · rintro ⟨_, ⟨p, hp, rfl⟩, hi⟩
      exact ((mem_stripe_iff_mod hp).mp hi).1
    · intro hi
      have hp := Nat.mod_lt i hc
      exact ⟨_, ⟨_, hp, rfl⟩, (mem_stripe_iff_mod hp).mpr ⟨hi, rfl⟩⟩

/-- Whatever the number of workers, the stripes hold every item once. -/
theorem flatten_stripes_perm (items workers : Int) :
    (stripes items workers).flatten.Perm (List.range items.toNat) := by
  rw [List.perm_ext_iff_of_nodup (nodup_flatten_stripes items workers) List.nodup_range]
  intro i
  rw [mem_flatten_stripes, List.mem_range]

end Gridding.Striped
