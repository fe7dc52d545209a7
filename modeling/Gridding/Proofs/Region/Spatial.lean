import Gridding.Proofs.Region.Content

/-!
# Regions in space

`Spatial` says of regions that take up places that they meet where their places do, that a region
covers what is not empty and lies within its place, and that a single point takes up an atom unless it
is empty, as a part of a multipoint may be. Of measures it says only that they are not negative and
that nothing has none.

More is true of some measures. A region is additive if what it shares with others is a content of
their places; areas are. Lengths are subadditive: a line cut into pieces is no shorter. They need not
be additive, since a line that is straight on the map does not follow a great circle, and since a
line may run along itself.
-/

namespace Gridding

namespace Region

variable {ρ α ε B : Type} [Region ρ α ε]

/-- The parts of a region that are not empty. -/
def filledParts (q : ρ) : List ρ := (parts q).filter fun p => !isEmpty p

theorem filledParts_sublist (q : ρ) : (filledParts q).Sublist (parts q) := List.filter_sublist

theorem mem_filledParts {p q : ρ} : p ∈ filledParts q ↔ p ∈ parts q ∧ isEmpty p = false := by
  rw [filledParts, List.mem_filter, Bool.not_eq_true']

theorem filledParts_eq_iff {q : ρ} : filledParts q = parts q ↔ ∀ p ∈ parts q, isEmpty p = false := by
  simp only [filledParts, List.filter_eq_self, Bool.not_eq_true']

variable [GeneralizedBooleanAlgebra B] [Field α] [LinearOrder α]

/-- The measure of the intersection of two regions. -/
def shared (d : Int) (a b : ρ) : α :=
  match meet a b with
  | .ok p => measure d p
  | .error _ => 0

structure Spatial (place : ρ → B) : Prop extends Placed place where
  parts_place (r : ρ) : place r = cover ((parts r).map place)
  isAtom (r : ρ) : isPoint r = true → isEmpty r = false → IsAtom (place r)
  meets_iff (a b : ρ) : meets a b = true ↔ ¬ Disjoint (place a) (place b)
  covers_iff (a b : ρ) : covers a b = true ↔ isEmpty b = false ∧ place b ≤ place a
  measure_nonneg (d : Int) (r : ρ) : 0 ≤ measure d r
  measure_of_isEmpty (d : Int) (r : ρ) : isEmpty r = true → measure d r = 0

/-- The members of a union share no less with a region than the union does. -/
def Subadditive (d : Int) (q : ρ) : Prop :=
  ∀ (rs : List ρ) (u : ρ), union rs = .ok u → shared d u q ≤ (rs.map fun r => shared d r q).sum

/-- What a region shares with others is a content of their places. -/
structure Additive (place : ρ → B) (m : B → α) (d : Int) (q : ρ) : Prop where
  isContent : IsContent fun x => m (place q ⊓ x)
  measure_eq : measure d q = m (place q)
  measure_meet (a p : ρ) : meet a q = .ok p → measure d p = m (place q ⊓ place a)

/-- A region is its own part within what covers it, of two regions it does not matter which comes
first, and a point that is not empty counts as one. -/
structure Clipping (ρ : Type) {α ε : Type} [Region ρ α ε] [Field α] : Prop where
  meet_of_covers (a b : ρ) : covers a b = true → meet b a = .ok b
  shared_comm (d : Int) (a b : ρ) : shared d a b = shared d b a
  measure_of_isPoint (p : ρ) : isPoint p = true → isEmpty p = false → measure 0 p = 1

omit [LinearOrder α] in
theorem shared_eq {d : Int} {a b p : ρ} (h : meet a b = .ok p) : shared d a b = measure d p := by
  rw [shared, h]

namespace Spatial

variable {place : ρ → B}

theorem shared_nonneg (h : Spatial place) (d : Int) (a b : ρ) : 0 ≤ shared d a b := by
  obtain ⟨p, hp, -⟩ := h.meet_place a b
  rw [shared_eq hp]
  exact h.measure_nonneg d p

theorem meets_of_shared_pos (h : Spatial place) {d : Int} {a b : ρ} (hpos : 0 < shared d a b) :
    meets a b = true := by
  obtain ⟨p, hp, hplace⟩ := h.meet_place a b
  rw [shared_eq hp] at hpos
  refine (h.meets_iff a b).mpr fun hdisjoint => ?_
  rw [hdisjoint.eq_bot] at hplace
  exact hpos.ne' (h.measure_of_isEmpty d p ((h.isEmpty_iff p).mpr hplace))

theorem isNear_of_meets (h : Spatial place) {a b : ρ} (hmeets : meets a b = true) :
    isNear a b = true := by
  by_contra hfar
  exact (h.meets_iff a b).mp hmeets (h.disjoint_of_far a b (Bool.eq_false_of_not_eq_true hfar))

theorem meets_of_isEmpty (h : Spatial place) {a p : ρ} (hp : isEmpty p = true) :
    meets a p = false := by
  rw [← Bool.not_eq_true, h.meets_iff, (h.isEmpty_iff p).mp hp, not_not]
  exact disjoint_bot_right

theorem length_filledParts_pos (h : Spatial place) {r : ρ} (hr : isEmpty r = false) :
    0 < (filledParts r).length := by
  rw [List.length_pos_iff]
  intro hnil
  have hnone : place r ≤ ⊥ := by
    rw [h.parts_place r, cover_le_iff, List.forall_mem_map]
    intro p hp
    by_contra hsome
    have hempty : isEmpty p = false := by
      rw [← Bool.not_eq_true, h.isEmpty_iff]
      exact fun hbot => hsome hbot.le
    exact List.ne_nil_of_mem (mem_filledParts.mpr ⟨hp, hempty⟩) hnil
  rw [(h.isEmpty_iff r).mpr (le_bot_iff.mp hnone)] at hr
  cases hr

theorem length_parts_pos (h : Spatial place) {r : ρ} (hr : isEmpty r = false) :
    0 < (parts r).length :=
  (h.length_filledParts_pos hr).trans_le (filledParts_sublist r).length_le

/-- A point meets what it lies within. -/
theorem meets_point_iff (h : Spatial place) {a p : ρ} (hp : isPoint p = true)
    (hne : isEmpty p = false) : meets a p = true ↔ place p ≤ place a := by
  rw [h.meets_iff, disjoint_comm, (h.isAtom p hp hne).not_disjoint_iff_le]

theorem covers_point_iff (h : Spatial place) {a p : ρ} (hp : isPoint p = true)
    (hne : isEmpty p = false) : covers a p = true ↔ meets a p = true := by
  rw [h.covers_iff, h.meets_point_iff hp hne, and_iff_right hne]

/-- What covers a region covers the parts of it that are not empty. -/
theorem covers_of_mem_parts (h : Spatial place) {a q p : ρ} (hcovers : covers a q = true)
    (hp : p ∈ parts q) (hne : isEmpty p = false) : covers a p = true := by
  rw [h.covers_iff, and_iff_right hne]
  calc place p ≤ place q := (h.parts_place q).symm ▸ le_cover (List.mem_map_of_mem hp)
    _ ≤ place a := ((h.covers_iff a q).mp hcovers).2

end Spatial

namespace Additive

variable {place : ρ → B} {m : B → α} {d : Int} {q : ρ}

theorem shared_eq (h : Additive place m d q) (hs : Spatial place) (a : ρ) :
    shared d a q = m (place q ⊓ place a) := by
  obtain ⟨p, hp, -⟩ := hs.meet_place a q
  rw [Region.shared_eq hp, h.measure_meet a p hp]

variable [IsStrictOrderedRing α]

theorem shared_mono (h : Additive place m d q) (hs : Spatial place) {a b : ρ}
    (hab : place a ≤ place b) : shared d a q ≤ shared d b q := by
  rw [h.shared_eq hs, h.shared_eq hs]
  exact h.isContent.mono hab

theorem shared_le (h : Additive place m d q) (hs : Spatial place) (a : ρ) :
    shared d a q ≤ measure d q := by
  have hle := h.isContent.mono (inf_le_left : place q ⊓ place a ≤ place q)
  rwa [← inf_assoc, inf_idem, ← h.measure_eq, ← h.shared_eq hs] at hle

theorem subadditive (h : Additive place m d q) (hs : Spatial place) : Subadditive d q := by
  intro rs u hu
  have hle := h.isContent.cover_le_sum (rs.map place)
  simp only [h.shared_eq hs, hs.union_place rs u hu]
  rwa [List.map_map] at hle

/-- The members of a union share no more with a region than the union does if and only if no two of
them share a part of it of any size. -/
theorem sum_shared_eq_iff (h : Additive place m d q) (hs : Spatial place) {rs : List ρ} {u : ρ}
    (hu : union rs = .ok u) :
    (rs.map fun r => shared d r q).sum = shared d u q ↔
      rs.Pairwise fun a b => m (place q ⊓ (place a ⊓ place b)) = 0 := by
  have hiff := h.isContent.sum_eq_cover_iff (rs.map place)
  simp only [h.shared_eq hs, hs.union_place rs u hu]
  rwa [List.map_map, List.pairwise_map] at hiff

end Additive

/-- A gauged region is additive. -/
theorem Gauged.additive {place : ρ → B} {m : B → α} {d : Int} {q : ρ} (hq : Gauged place m d q)
    (hp : Placed place) : Additive place m d q where
  isContent := hq.isContent
  measure_eq := hq.measure_eq q le_rfl
  measure_meet a p hmeet := by
    have hplace := (hp.place_of_meet hmeet).trans (inf_comm _ _)
    rw [hq.measure_eq p (hplace.trans_le inf_le_left), hplace]

theorem Areas.additive {place interior : ρ → B} {area : B → α} (ha : Areas place interior area)
    (hp : Placed place) (q : ρ) : Additive place area 2 q :=
  (ha.gauged q).additive hp

theorem Measured.additive {place : ρ → B} {μ : Int → B → α} (hm : Measured place μ) {d : Int} {q : ρ}
    (hq : dimension q ≤ d) : Additive place (μ d) d q :=
  (hm.gauged hq).additive hm.toPlaced

end Region

end Gridding
