import Gridding.Text.Blank
import Mathlib.Data.List.DropRight
import Mathlib.Data.List.TakeWhile

/-!
# Trimming

Trimming drops what stands around a text whose first and last characters are to be kept, and nothing
else.
-/

namespace Gridding.Text

variable {p : Char → Bool} {cs before after : List Char}

/-- The first and the last character of a text are to be kept, if there are any. -/
structure IsTrim (p : Char → Bool) (cs : List Char) : Prop where
  head : ∀ c ∈ cs.head?, p c = false
  last : ∀ c ∈ cs.getLast?, p c = false

theorem dropWhile_eq_self_of_head (h : ∀ c ∈ cs.head?, p c = false) : cs.dropWhile p = cs := by
  cases cs with
  | nil => rfl
  | cons c cs => rw [List.dropWhile_cons_of_neg (by simpa using h c rfl)]

theorem IsTrim.of_forall (h : ∀ c ∈ cs, p c = false) : IsTrim p cs where
  head _ hc := h _ (List.mem_of_mem_head? hc)
  last _ hc := h _ (List.mem_of_mem_getLast? hc)

theorem IsTrim.append {ds : List Char} (hcs : IsTrim p cs) (hds : IsTrim p ds) :
    IsTrim p (cs ++ ds) where
  head c hc := by
    rw [List.head?_append, Option.mem_def, Option.or_eq_some_iff] at hc
    rcases hc with hc | ⟨-, hc⟩
    · exact hcs.head c hc
    · exact hds.head c hc
  last c hc := by
    rw [List.getLast?_append, Option.mem_def, Option.or_eq_some_iff] at hc
    rcases hc with hc | ⟨-, hc⟩
    · exact hds.last c hc
    · exact hcs.last c hc

/-- Between two texts that are to be kept, anything is. -/
theorem IsTrim.append_append {ds : List Char} (hcs : IsTrim p cs) (hne : cs ≠ [])
    (hds : IsTrim p ds) (hne' : ds ≠ []) (between : List Char) :
    IsTrim p (cs ++ between ++ ds) where
  head c hc := by
    rw [List.append_assoc, List.head?_append_of_ne_nil _ hne] at hc
    exact hcs.head c hc
  last c hc := by
    rw [List.getLast?_append_of_ne_nil _ hne'] at hc
    exact hds.last c hc

theorem isTrim_intercalate {separator : Char} (hseparator : p separator = false)
    {parts : List (List Char)} (h : ∀ part ∈ parts, IsTrim p part) :
    IsTrim p ([separator].intercalate parts) := by
  induction parts with
  | nil => exact .of_forall (List.forall_mem_nil _)
  | cons part parts ih =>
    obtain ⟨hpart, hparts⟩ := List.forall_mem_cons.mp h
    cases parts with
    | nil => rwa [List.intercalate_singleton]
    | cons next parts =>
      rw [List.intercalate_cons_cons]
      exact (hpart.append (.of_forall (by simpa using hseparator))).append (ih hparts)

theorem trimBoth_append (hbefore : ∀ c ∈ before, p c) (hafter : ∀ c ∈ after, p c)
    (h : IsTrim p cs) : trimBoth p (before ++ cs ++ after) = cs := by
  rw [trimBoth, List.append_assoc, List.dropWhile_append_of_pos hbefore]
  cases cs with
  | nil => simp [List.dropWhile_eq_nil_iff.mpr hafter]
  | cons c cs =>
    have hfirst : ((c :: cs) ++ after).dropWhile p = (c :: cs) ++ after :=
      dropWhile_eq_self_of_head h.head
    have hlast : (c :: cs).reverse.dropWhile p = (c :: cs).reverse := by
      apply dropWhile_eq_self_of_head
      rw [List.head?_reverse]
      exact h.last
    rw [hfirst, List.reverse_append, List.dropWhile_append_of_pos (by simpa using hafter), hlast,
      List.reverse_reverse]

theorem IsTrim.trimBoth_eq (h : IsTrim p cs) : trimBoth p cs = cs := by
  have hpadded := trimBoth_append (List.forall_mem_nil _) (List.forall_mem_nil _) h
  rwa [List.nil_append, List.append_nil] at hpadded

theorem mem_of_mem_trimBoth {c : Char} (h : c ∈ trimBoth p cs) : c ∈ cs := by
  rw [trimBoth, List.mem_reverse] at h
  have hmem := (List.dropWhile_sublist p).mem h
  exact (List.dropWhile_sublist p).mem (List.mem_reverse.mp hmem)

theorem trimBoth_eq_nil (h : ∀ c ∈ cs, p c) : trimBoth p cs = [] := by
  rw [trimBoth, List.dropWhile_eq_nil_iff.mpr h]
  rfl

/-- Nothing is dropped from the end before the first character that is to be kept. -/
theorem head?_trimBoth : (trimBoth p cs).head? = (cs.dropWhile p).head? := by
  rw [trimBoth]
  cases h : cs.dropWhile p with
  | nil => rfl
  | cons c rest =>
    have hc : p c = false := by
      have hhead := List.head?_dropWhile_not p cs
      rw [h] at hhead
      exact hhead
    rw [List.reverse_cons, List.dropWhile_append, List.dropWhile_cons_of_neg (by simp [hc])]
    split <;> simp

theorem trimBoth_isInfix : trimBoth p cs <:+: cs :=
  (List.rdropWhile_prefix p (cs.dropWhile p)).isInfix.trans (List.dropWhile_suffix p).isInfix

/-- What is trimmed starts and ends with characters that are to be kept. -/
theorem isTrim_trimBoth : IsTrim p (trimBoth p cs) where
  head c hc := by
    rw [head?_trimBoth] at hc
    have hhead := List.head?_dropWhile_not p cs
    rw [Option.mem_def.mp hc] at hhead
    exact hhead
  last c hc := by
    rw [trimBoth, List.getLast?_reverse] at hc
    have hhead := List.head?_dropWhile_not p (cs.dropWhile p).reverse
    rw [Option.mem_def.mp hc] at hhead
    exact hhead

end Gridding.Text
