import Gridding.Cache.Recent
import Gridding.Proofs.Entries

/-!
# Entries of values in order of use

Which entries there can be after a change.
-/

namespace Gridding

variable {κ α : Type} [BEq κ]

namespace Recent

theorem erase_sublist (r : Recent κ α) (key : κ) : (r.erase key).entries.Sublist r.entries :=
  List.filter_sublist

omit [BEq κ] in
theorem keepNewest_sublist (r : Recent κ α) (n : Nat) :
    (r.keepNewest n).entries.Sublist r.entries := List.drop_sublist _ _

omit [BEq κ] in
theorem size_keepNewest_le (r : Recent κ α) (n : Nat) : (r.keepNewest n).size ≤ n := by
  simp only [size, keepNewest, List.length_drop]
  omega

variable [LawfulBEq κ]

theorem ne_of_mem_erase {r : Recent κ α} {key : κ} {e : κ × α}
    (h : e ∈ (r.erase key).entries) : e.1 ≠ key := by
  simpa using (List.mem_filter.mp h).2

theorem mem_refresh {r : Recent κ α} {key : κ} {e : κ × α} (h : e ∈ (r.refresh key).entries) :
    e ∈ r.entries := by
  unfold refresh at h
  split at h
  · rename_i a ha
    rcases List.mem_append.mp h with h | h
    · exact (r.erase_sublist key).subset h
    · rw [List.mem_singleton.mp h]
      exact mem_of_lookup ha
  · exact h

/-- A key that is moved is there, so its entry is taken out before it is put behind the others. -/
theorem size_refresh_le (r : Recent κ α) (key : κ) : (r.refresh key).size ≤ r.size := by
  unfold refresh
  split
  · rename_i a ha
    have hlt : (r.erase key).entries.length < r.entries.length := by
      refine List.length_filter_lt_length_iff_exists.mpr ⟨(key, a), mem_of_lookup ha, ?_⟩
      simp
    simp only [size, List.length_append, List.length_singleton]
    omega
  · exact Nat.le_refl _

end Recent

end Gridding
