import Gridding.Entries
import Mathlib.Data.List.Basic
import Mathlib.Data.List.Induction
import Mathlib.Data.List.Nodup
import Mathlib.Tactic.Common

/-!
# Entries of keys

What looking up a key tells of the entries, what is found after a key is given a value, and what is
left of entries that are put one after the other: of those of one key the last counts, and the keys
keep the order in which they first came.
-/

namespace Gridding

variable {κ α : Type} [BEq κ] [LawfulBEq κ]

theorem mem_of_lookup {key : κ} {a : α} {es : List (κ × α)} (h : es.lookup key = some a) :
    (key, a) ∈ es := by
  obtain ⟨before, after, rfl, -⟩ := List.lookup_eq_some_iff.mp h
  simp

theorem lookup_eq_none_iff_forall_ne {key : κ} {es : List (κ × α)} :
    es.lookup key = none ↔ ∀ e ∈ es, e.1 ≠ key := by
  rw [List.lookup_eq_none_iff]
  refine forall₂_congr fun e _ => ?_
  rw [bne_iff_ne]
  exact ne_comm

theorem exists_lookup_of_mem {key : κ} {a : α} {es : List (κ × α)} (h : (key, a) ∈ es) :
    ∃ b, es.lookup key = some b := by
  cases hb : es.lookup key with
  | some b => exact ⟨b, rfl⟩
  | none => exact absurd rfl (lookup_eq_none_iff_forall_ne.mp hb (key, a) h)

theorem lookup_of_mem_of_nodup {key : κ} {a : α} {es : List (κ × α)} (h : (key, a) ∈ es)
    (hnodup : (es.map (·.1)).Nodup) : es.lookup key = some a := by
  obtain ⟨b, hb⟩ := exists_lookup_of_mem h
  have hsame := List.inj_on_of_nodup_map hnodup h (mem_of_lookup hb) rfl
  rw [hb, (Prod.mk.inj hsame).2]

namespace Entries

omit [LawfulBEq κ] in
theorem mem_put {key : κ} {a : α} {es : List (κ × α)} {e : κ × α}
    (h : e ∈ put key a es) : e ∈ es ∨ e = (key, a) := by
  induction es with
  | nil => exact .inr (List.mem_singleton.mp h)
  | cons f es ih =>
    rw [put] at h
    split at h
    · rcases List.mem_cons.mp h with h | h
      · exact .inr h
      · exact .inl (List.mem_cons_of_mem f h)
    · rcases List.mem_cons.mp h with h | h
      · exact .inl (h ▸ List.mem_cons_self)
      · exact (ih h).imp_left (List.mem_cons_of_mem f)

theorem lookup_put (key : κ) (a : α) (es : List (κ × α)) (k : κ) :
    (put key a es).lookup k = if k == key then some a else es.lookup k := by
  induction es with
  | nil => rw [put, List.lookup_cons, List.lookup_nil]; split <;> simp_all
  | cons e es ih =>
    rw [put]
    split
    case isTrue h =>
      rw [List.lookup_cons, List.lookup_cons, eq_of_beq h]
      split <;> simp_all
    case isFalse h =>
      rw [List.lookup_cons, ih, List.lookup_cons]
      split
      · split <;> simp_all
      · rfl

theorem put_of_lookup_eq_none {key : κ} {a : α} {es : List (κ × α)}
    (h : es.lookup key = none) : put key a es = es ++ [(key, a)] := by
  induction es with
  | nil => rfl
  | cons e es ih =>
    have hne := lookup_eq_none_iff_forall_ne.mp h
    rw [put, if_neg (by simpa using hne e List.mem_cons_self),
      ih (lookup_eq_none_iff_forall_ne.mpr fun x hx => hne x (List.mem_cons_of_mem e hx)),
      List.cons_append]

/-! ## Entries that are put one after the other -/

def collect (es : List (κ × α)) : List (κ × α) := es.foldl (fun found e => put e.1 e.2 found) []

omit [LawfulBEq κ] in
theorem collect_concat (es : List (κ × α)) (e : κ × α) :
    collect (es ++ [e]) = put e.1 e.2 (collect es) := by
  rw [collect, List.foldl_concat]
  rfl

omit [LawfulBEq κ] in
theorem collect_ne_nil {es : List (κ × α)} (h : es ≠ []) : collect es ≠ [] := by
  induction es using List.reverseRecOn with
  | nil => exact absurd rfl h
  | append_singleton es e ih =>
    rw [collect_concat]
    cases collect es with
    | nil => exact List.cons_ne_nil _ _
    | cons f fs =>
      rw [put]
      split <;> exact List.cons_ne_nil _ _

/-- The last entry of a key counts. -/
theorem lookup_collect (es : List (κ × α)) (key : κ) :
    (collect es).lookup key = es.reverse.lookup key := by
  induction es using List.reverseRecOn with
  | nil => rfl
  | append_singleton es e ih =>
    rw [collect_concat, lookup_put, ih, List.reverse_append, List.reverse_singleton,
      List.singleton_append, List.lookup_cons]
    cases key == e.1 <;> rfl

theorem keys_put (key : κ) (value : α) (es : List (κ × α)) :
    (put key value es).map (·.1) =
      if (es.map (·.1)).contains key then es.map (·.1) else es.map (·.1) ++ [key] := by
  induction es with
  | nil => rfl
  | cons e es ih =>
    rw [put]
    split
    case isTrue h => simp [eq_of_beq h]
    case isFalse h =>
      have hne : ¬ key = e.1 := fun heq => h (by simp [heq])
      rw [List.map_cons, ih, List.map_cons]
      simp only [List.contains_cons, beq_eq_false_iff_ne.mpr hne, Bool.false_or]
      split <;> rfl

theorem nodup_keys_put {es : List (κ × α)} (h : (es.map (·.1)).Nodup) (key : κ) (value : α) :
    ((put key value es).map (·.1)).Nodup := by
  rw [keys_put]
  split
  case isTrue => exact h
  case isFalse hnew =>
    rw [← List.concat_eq_append]
    exact (List.nodup_concat _ _).mpr ⟨fun hmem => hnew (List.contains_iff_mem.mpr hmem), h⟩

/-- Keys keep the order in which they first came. -/
theorem keys_collect (es : List (κ × α)) : (collect es).map (·.1) = (es.map (·.1)).eraseDups := by
  induction es using List.reverseRecOn with
  | nil => rfl
  | append_singleton es e ih =>
    rw [collect_concat, keys_put, ih, List.map_append, List.map_singleton, List.eraseDups_append]
    have hkeys : ((es.map (·.1)).eraseDups).contains e.1 = (es.map (·.1)).contains e.1 := by
      rw [Bool.eq_iff_iff, List.contains_iff_mem, List.contains_iff_mem, List.mem_eraseDups]
    rw [hkeys, List.removeAll, List.filter_singleton, List.elem_eq_contains]
    cases (es.map (·.1)).contains e.1 with
    | true => exact (List.append_nil _).symm
    | false => rfl

theorem nodup_keys_collect (es : List (κ × α)) : ((collect es).map (·.1)).Nodup := by
  induction es using List.reverseRecOn with
  | nil => exact List.nodup_nil
  | append_singleton es e ih =>
    rw [collect_concat]
    exact nodup_keys_put ih e.1 e.2

end Entries

end Gridding
