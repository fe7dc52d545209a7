import Gridding.Region.Basic
import Mathlib.Order.Lattice
import Mathlib.Tactic.Common

/-!
# What bounds tell about intersections

An index finds regions by their bounds. `Boxed` says what bounds have to do with intersections;
`Lossless` is all that follows for allocation: two regions that an index keeps apart do not meet,
and neither does a part of one of them meet the other.
-/

namespace Gridding

variable {κ ρ α ε : Type}

structure Box (κ : Type) where
  west : κ
  south : κ
  east : κ
  north : κ

namespace Box

variable [Preorder κ]

/-- Touching boxes meet. -/
def Meets (a b : Box κ) : Prop :=
  a.west ≤ b.east ∧ b.west ≤ a.east ∧ a.south ≤ b.north ∧ b.south ≤ a.north

def Within (a b : Box κ) : Prop :=
  b.west ≤ a.west ∧ a.east ≤ b.east ∧ b.south ≤ a.south ∧ a.north ≤ b.north

theorem Meets.of_within {a b c : Box κ} (h : a.Meets c) (hab : a.Within b) : b.Meets c :=
  ⟨hab.1.trans h.1, h.2.1.trans hab.2.1, hab.2.2.1.trans h.2.2.1, h.2.2.2.trans hab.2.2.2⟩

theorem Meets.symm {a b : Box κ} (h : a.Meets b) : b.Meets a :=
  ⟨h.2.1, h.1, h.2.2.2, h.2.2.1⟩

end Box

namespace Region

/-- The box of a region bounds it, and an index finds all regions whose boxes meet. -/
structure Boxed [Region ρ α ε] [Preorder κ] (box : ρ → Box κ) : Prop where
  isNear_of_meets (a b : ρ) : isEmpty a = false → isEmpty b = false → (box a).Meets (box b) →
    isNear a b = true
  meet_of_apart (a b : ρ) : isEmpty a = true ∨ isEmpty b = true ∨ ¬ (box a).Meets (box b) →
    ∃ p, meet a b = .ok p ∧ isEmpty p = true
  within_of_meet (a b p : ρ) : meet a b = .ok p → isEmpty p = false →
    (box p).Within (box a) ∧ (box p).Within (box b)

/-- What an index keeps apart does not meet. -/
class Lossless (ρ : Type) {α ε : Type} [Region ρ α ε] : Prop where
  meet_of_far (a b : ρ) : isNear a b = false → ∃ p, meet a b = .ok p ∧ isEmpty p = true
  meet_of_part_of_far (a b c k : ρ) : meet a b = .ok k → isNear c b = false →
    ∃ p, meet k c = .ok p ∧ isEmpty p = true

theorem Boxed.lossless [Region ρ α ε] [Preorder κ] {box : ρ → Box κ} (h : Boxed box) :
    Lossless ρ where
  meet_of_far a b hfar := by
    refine h.meet_of_apart a b ?_
    by_contra! hne
    obtain ⟨ha, hb, hm⟩ := hne
    rw [h.isNear_of_meets a b (by simpa using ha) (by simpa using hb) hm] at hfar
    cases hfar
  meet_of_part_of_far a b c k hk hfar := by
    refine h.meet_of_apart k c ?_
    by_contra! hne
    obtain ⟨hke, hc, hm⟩ := hne
    have hke : isEmpty k = false := by simpa using hke
    have hc : isEmpty c = false := by simpa using hc
    have hkb := (h.within_of_meet a b k hk hke).2
    -- the part reaches as far as `c` only if all of `b` does, and then an index finds `c`
    have hcb : (box c).Meets (box b) := (hm.of_within hkb).symm
    cases hb : isEmpty b with
    | false =>
      rw [h.isNear_of_meets c b hc hb hcb] at hfar
      cases hfar
    | true =>
      obtain ⟨p, hp, hpe⟩ := h.meet_of_apart a b (.inr (.inl hb))
      rw [hk, Except.ok.injEq] at hp
      rw [hp, hpe] at hke
      cases hke

end Region

end Gridding
