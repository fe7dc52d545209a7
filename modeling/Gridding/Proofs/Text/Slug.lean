import Gridding.Proofs.Text.Trimming
import Gridding.Text.Slug

/-!
# What slugs are like

Every key has a slug, which is made of letters, digits and a few marks and is not empty. Texts that
are like this are their own slugs, and no others are.
-/

namespace Gridding.Text

/-- Letters, digits, `-`, `_` and `.`, one of them at least, with neither `_` nor `.` at an end. -/
structure IsSlug (s : String) : Prop where
  ne_empty : s ≠ ""
  chars : ∀ c ∈ s.toList, isAlphanumeric c ∨ c = '-' ∨ c = '_' ∨ c = '.'
  head : ∀ c ∈ s.toList.head?, c ≠ '_' ∧ c ≠ '.'
  last : ∀ c ∈ s.toList.getLast?, c ≠ '_' ∧ c ≠ '.'

theorem isSlugChar_iff {c : Char} :
    isSlugChar c ↔ isAlphanumeric c ∨ c = '-' ∨ c = '_' ∨ c = '.' := by
  simp only [isSlugChar, Bool.or_eq_true, beq_iff_eq, or_assoc]

theorem isSlugEdge_eq_false_iff {c : Char} : isSlugEdge c = false ↔ c ≠ '_' ∧ c ≠ '.' := by
  simp only [isSlugEdge, Bool.or_eq_false_iff, beq_eq_false_iff_ne]

namespace IsSlug

variable {s : String}

theorem isSlugChar (h : IsSlug s) : ∀ c ∈ s.toList, isSlugChar c :=
  fun c hc => isSlugChar_iff.mpr (h.chars c hc)

theorem isTrim (h : IsSlug s) : IsTrim isSlugEdge s.toList where
  head c hc := isSlugEdge_eq_false_iff.mpr (h.head c hc)
  last c hc := isSlugEdge_eq_false_iff.mpr (h.last c hc)

theorem ofList {cs : List Char} (hne : cs ≠ []) (hchars : ∀ c ∈ cs, Text.isSlugChar c)
    (htrim : IsTrim isSlugEdge cs) : IsSlug (String.ofList cs) where
  ne_empty h := hne (by rw [← String.toList_ofList (l := cs), h, String.toList_empty])
  chars c hc := isSlugChar_iff.mp (hchars c (by rwa [String.toList_ofList] at hc))
  head c hc := isSlugEdge_eq_false_iff.mp (htrim.head c (by rwa [String.toList_ofList] at hc))
  last c hc := isSlugEdge_eq_false_iff.mp (htrim.last c (by rwa [String.toList_ofList] at hc))

end IsSlug

/-! ## Slugs of keys -/

/-- A character as it stands in a slug. -/
theorem isSlugChar_kept (c : Char) : isSlugChar (if isSlugChar c then c else '_') := by
  by_cases h : isSlugChar c
  · rwa [if_pos h]
  · rw [if_neg h]
    exact isSlugChar_iff.mpr (.inr (.inr (.inl rfl)))

theorem isSlug_default : IsSlug (String.ofList "default".toList) := by
  have hkept : "default".toList.all (fun c => isSlugChar c && !isSlugEdge c) = true := rfl
  simp only [List.all_eq_true, Bool.and_eq_true, Bool.not_eq_true'] at hkept
  exact .ofList (by decide) (fun c hc => (hkept c hc).1) (.of_forall fun c hc => (hkept c hc).2)

theorem isSlug_slug (key : String) : IsSlug (slug key) := by
  unfold slug slugChars
  dsimp only
  split
  case isTrue => exact isSlug_default
  case isFalse hkept =>
    refine .ofList (by simpa using hkept) (fun c hc => ?_) isTrim_trimBoth
    obtain ⟨d, -, rfl⟩ := List.mem_map.mp (mem_of_mem_trimBoth hc)
    exact isSlugChar_kept d

theorem slug_eq_self_iff {s : String} : slug s = s ↔ IsSlug s := by
  constructor
  · intro h
    exact h ▸ isSlug_slug s
  · intro h
    have hkept : s.toList.map (fun c => if isSlugChar c then c else '_') = s.toList := by
      rw [List.map_congr_left fun c hc => if_pos (h.isSlugChar c hc), List.map_id']
    have hne : s.toList ≠ [] := by simpa using h.ne_empty
    rw [slug, slugChars, hkept, h.isTrim.trimBoth_eq, if_neg (by simpa using hne),
      String.ofList_toList]

theorem slug_slug (key : String) : slug (slug key) = slug key :=
  slug_eq_self_iff.mpr (isSlug_slug key)

end Gridding.Text
