import Mathlib.Data.List.Basic
import Mathlib.Data.List.Forall2
import Mathlib.Tactic.Common

/-!
# Computations that may fail

Two computations agree up to a relation if both fail or both succeed with related results. Why they
fail is left open, since work on several items may meet its failures in any order. `Agree.bind`
builds agreement of programs from agreement of their steps.
-/

namespace Gridding

variable {ε φ : Type} {α β γ : Type}

/-- Both fail, or both succeed and their results are related. -/
def Agree (R : α → β → Prop) : Except ε α → Except φ β → Prop
  | .ok a, .ok b => R a b
  | .error _, .error _ => True
  | _, _ => False

theorem bind_eq_ok {x : Except ε α} {f : α → Except ε β} {b : β} :
    x >>= f = .ok b ↔ ∃ a, x = .ok a ∧ f a = .ok b := by
  cases x with
  | error e => simp [bind, Except.bind]
  | ok a => simp [bind, Except.bind]

theorem mapError_eq_ok {x : Except ε α} {g : ε → φ} {a : α} :
    x.mapError g = .ok a ↔ x = .ok a := by
  cases x <;> simp [Except.mapError]

/-- The steps of a program may name their errors, or the whole program. -/
theorem mapError_bind (x : Except ε α) (f : α → Except ε β) (g : ε → φ) :
    (x.mapError g >>= fun a => (f a).mapError g) = (x >>= f).mapError g := by
  cases x <;> rfl

theorem mapError_injective {g : ε → φ} (hg : Function.Injective g) :
    Function.Injective (Except.mapError (α := α) g) := by
  intro x y h
  cases x <;> cases y <;> simp_all [Except.mapError, hg.eq_iff]

theorem map_eq_ok {x : Except ε α} {f : α → β} {b : β} :
    x.map f = .ok b ↔ ∃ a, x = .ok a ∧ f a = b := by
  cases x <;> simp [Except.map]

namespace Agree

variable {R : α → β → Prop}

theorem refl (x : Except ε α) : Agree (· = ·) x x := by
  cases x with
  | error e => trivial
  | ok a => exact rfl

theorem symm {x : Except ε α} {y : Except φ α} (h : Agree (· = ·) x y) :
    Agree (· = ·) y x := by
  cases x <;> cases y <;> first | exact trivial | exact h.elim | exact Eq.symm h

theorem trans_eq {ψ : Type} {x : Except ε α} {y : Except φ α} {z : Except ψ β}
    (h : Agree (· = ·) x y) (h' : Agree R y z) : Agree R x z := by
  cases x <;> cases y <;> cases z <;> first | exact trivial | exact h.elim | exact h'.elim | skip
  have he : _ = _ := h
  rw [he]
  exact h'

theorem mapError {ψ : Type} {x : Except ε α} {y : Except φ β} (g : ε → ψ) (h : Agree R x y) :
    Agree R (x.mapError g) y := by
  cases x <;> cases y <;> exact h

theorem imp {S : α → β → Prop} {x : Except ε α} {y : Except φ β} (h : Agree R x y)
    (hRS : ∀ a b, y = .ok b → R a b → S a b) : Agree S x y := by
  cases x <;> cases y <;> first | exact trivial | exact h.elim | exact hRS _ _ rfl h

theorem exists_ok {x : Except ε α} {y : Except φ β} {b : β} (h : Agree R x y) (hy : y = .ok b) :
    ∃ a, x = .ok a ∧ R a b := by
  subst hy
  cases x with
  | error e => exact h.elim
  | ok a => exact ⟨a, rfl, h⟩

/-- Programs agree whose first steps agree and whose later steps do on related results. -/
theorem bind {α' β' : Type} {S : α' → β' → Prop} {x : Except ε α} {y : Except φ β}
    {f : α → Except ε α'} {g : β → Except φ β'} (h : Agree R x y)
    (hfg : ∀ a b, x = .ok a → y = .ok b → R a b → Agree S (f a) (g b)) :
    Agree S (x >>= f) (y >>= g) := by
  cases x <;> cases y <;> first | exact trivial | exact h.elim | exact hfg _ _ rfl rfl h

theorem ok_iff {x : Except ε α} {y : Except φ α} (h : Agree (· = ·) x y) (a : α) :
    x = .ok a ↔ y = .ok a := by
  cases x <;> cases y <;> first | exact h.elim | skip
  · simp
  · have he : _ = _ := h
    rw [he]
    simp

end Agree

/-- Has a result one property, or the error another? -/
def Yields (P : α → Prop) (Q : ε → Prop) : Except ε α → Prop
  | .ok a => P a
  | .error e => Q e

namespace Yields

variable {P : α → Prop} {Q : ε → Prop} {x : Except ε α}

theorem bind {P' : β → Prop} {f : α → Except ε β} (h : Yields P Q x)
    (hf : ∀ a, P a → Yields P' Q (f a)) : Yields P' Q (x >>= f) := by
  cases x with
  | error e => exact h
  | ok a => exact hf a h

theorem map {P' : β → Prop} {f : α → β} (h : Yields P Q x) (hf : ∀ a, P a → P' (f a)) :
    Yields P' Q (x.map f) := by
  cases x with
  | error e => exact h
  | ok a => exact hf a h

theorem imp {P' : α → Prop} (h : Yields P Q x) (hP : ∀ a, P a → P' a) : Yields P' Q x := by
  cases x with
  | error e => exact h
  | ok a => exact hP a h

end Yields

/-! ## Lists of computations -/

theorem mapM_eq_ok_iff {f : α → Except ε β} {as : List α} {bs : List β} :
    as.mapM f = .ok bs ↔ as.map f = bs.map .ok := by
  induction as generalizing bs with
  | nil => cases bs <;> simp [pure, Except.pure]
  | cons a as ih =>
    rw [List.mapM_cons, bind_eq_ok, List.map_cons]
    constructor
    · rintro ⟨b, hb, h⟩
      obtain ⟨bs', hbs, h⟩ := bind_eq_ok.mp h
      cases h
      rw [hb, ih.mp hbs, List.map_cons]
    · intro h
      cases bs with
      | nil => simp at h
      | cons b bs =>
        simp only [List.map_cons, List.cons.injEq] at h
        exact ⟨b, h.1, bind_eq_ok.mpr ⟨bs, ih.mpr h.2, rfl⟩⟩

theorem mapM_eq_some_iff {f : α → Option β} {as : List α} {bs : List β} :
    as.mapM f = some bs ↔ as.map f = bs.map some := by
  induction as generalizing bs with
  | nil => cases bs <;> simp
  | cons a as ih =>
    rw [List.mapM_cons, List.map_cons]
    cases bs with
    | nil => simp [Option.bind_eq_some_iff]
    | cons b bs => simp [Option.bind_eq_some_iff, ← ih]

theorem exists_of_mem_result {f : α → Except ε β} {as : List α} {bs : List β}
    (h : as.mapM f = .ok bs) {b : β} (hb : b ∈ bs) : ∃ a ∈ as, f a = .ok b := by
  have hmem := List.mem_map_of_mem (f := Except.ok (ε := ε)) hb
  rw [← mapM_eq_ok_iff.mp h] at hmem
  exact List.mem_map.mp hmem

theorem exists_result_of_mem {f : α → Except ε β} {as : List α} {bs : List β}
    (h : as.mapM f = .ok bs) {a : α} (ha : a ∈ as) : ∃ b ∈ bs, f a = .ok b := by
  have hmem := List.mem_map_of_mem (f := f) ha
  rw [mapM_eq_ok_iff.mp h] at hmem
  obtain ⟨b, hb, hab⟩ := List.mem_map.mp hmem
  exact ⟨b, hb, hab.symm⟩

theorem length_result {f : α → Except ε β} {as : List α} {bs : List β}
    (h : as.mapM f = .ok bs) : bs.length = as.length := by
  have hlen := congrArg List.length (mapM_eq_ok_iff.mp h)
  rw [List.length_map, List.length_map] at hlen
  exact hlen.symm

/-- Results that keep something of their items keep it in order. -/
theorem map_result {f : α → Except ε β} {g : β → γ} {k : α → γ} {as : List α} {bs : List β}
    (h : as.mapM f = .ok bs) (hf : ∀ a b, f a = .ok b → g b = k a) : bs.map g = as.map k := by
  induction as generalizing bs with
  | nil =>
    cases h
    rfl
  | cons a as ih =>
    rw [List.mapM_cons] at h
    obtain ⟨b, hb, h⟩ := bind_eq_ok.mp h
    obtain ⟨bs', hbs, h⟩ := bind_eq_ok.mp h
    cases h
    rw [List.map_cons, List.map_cons, hf a b hb, ih hbs]

theorem mapM_congr {f g : α → Except ε β} {as : List α} (h : ∀ a ∈ as, f a = g a) :
    as.mapM f = as.mapM g := by
  induction as with
  | nil => rfl
  | cons a as ih =>
    rw [List.mapM_cons, List.mapM_cons, h a List.mem_cons_self,
      ih fun b hb => h b (List.mem_cons_of_mem a hb)]

theorem mapM_map_ok {f : α → Except ε β} {g : β → γ} (as : List α) :
    (as.mapM fun a => (f a).map g) = (as.mapM f).map (List.map g) := by
  induction as with
  | nil => rfl
  | cons a as ih =>
    rw [List.mapM_cons, List.mapM_cons, ih]
    cases f a with
    | error e => rfl
    | ok b => cases as.mapM f <;> rfl

/-- Items may be left out whose computations succeed and give nothing of interest. -/
theorem mapM_filterMap_filter {f : α → Except ε β} {p : α → Bool} {q : β → Option γ}
    {as : List α} (h : ∀ a ∈ as, p a = false → ∃ b, f a = .ok b ∧ q b = none) :
    ((as.filter p).mapM f).map (List.filterMap q) = (as.mapM f).map (List.filterMap q) := by
  induction as with
  | nil => rfl
  | cons a as ih =>
    have hrest := ih fun b hb => h b (List.mem_cons_of_mem a hb)
    rw [List.mapM_cons]
    cases hp : p a with
    | false =>
      obtain ⟨b, hb, hq⟩ := h a List.mem_cons_self hp
      rw [List.filter_cons_of_neg (by simp [hp]), hrest, hb]
      cases as.mapM f <;> simp [bind, Except.bind, pure, Except.pure, Except.map, hq]
    | true =>
      rw [List.filter_cons_of_pos hp, List.mapM_cons]
      cases f a with
      | error e => rfl
      | ok b =>
        cases hm : (as.filter p).mapM f <;> cases hm' : as.mapM f <;> rw [hm, hm'] at hrest <;>
          simp_all [bind, Except.bind, pure, Except.pure, Except.map, List.filterMap_cons]

theorem exists_of_mapM_eq_error {f : α → Except ε β} {as : List α} {e : ε}
    (h : as.mapM f = .error e) : ∃ a ∈ as, f a = .error e := by
  induction as with
  | nil => simp [pure, Except.pure] at h
  | cons a as ih =>
    rw [List.mapM_cons] at h
    cases ha : f a with
    | error e' =>
      simp only [ha, bind, Except.bind, Except.error.injEq] at h
      exact ⟨a, List.mem_cons_self, by rw [ha, h]⟩
    | ok b =>
      cases has : as.mapM f with
      | error e' =>
        simp only [ha, has, bind, Except.bind, Except.error.injEq] at h
        obtain ⟨x, hx, hfx⟩ := ih (by rw [has, h])
        exact ⟨x, List.mem_cons_of_mem a hx, hfx⟩
      | ok bs => simp [ha, has, bind, Except.bind, pure, Except.pure] at h

theorem exists_mapM_eq_ok {f : α → Except ε β} {as : List α} (h : ∀ a ∈ as, ∃ b, f a = .ok b) :
    ∃ bs, as.mapM f = .ok bs := by
  cases has : as.mapM f with
  | ok bs => exact ⟨bs, rfl⟩
  | error e =>
    obtain ⟨a, ha, he⟩ := exists_of_mapM_eq_error has
    obtain ⟨b, hb⟩ := h a ha
    cases hb.symm.trans he

end Gridding
