import Gridding.Proofs.Region.Bounds
import Mathlib

/-!
# Contents

A content is a finitely additive size of places. The parts that cover a place are together no
smaller than the place, and they are no greater exactly if no two of them share anything.

`Placed` says of regions that they take up places, and that intersections and unions are those of the
places. A region is gauged if its parts are measured by a content of places. `Areas` gauges all
regions by their areas and says nothing of lengths and numbers of points; `Measured` gauges the
regions of dimension at most `d` for `d = 2`, `1` and `0` alike.
-/

namespace Gridding

variable {B α : Type} [GeneralizedBooleanAlgebra B] [Field α] [LinearOrder α]

structure IsContent (m : B → α) : Prop where
  nonneg (x : B) : 0 ≤ m x
  add (x y : B) : Disjoint x y → m (x ⊔ y) = m x + m y

/-- All that a list of places takes up. -/
def cover (xs : List B) : B := xs.foldr (· ⊔ ·) ⊥

theorem cover_le_iff {xs : List B} {y : B} : cover xs ≤ y ↔ ∀ x ∈ xs, x ≤ y := by
  induction xs with
  | nil => simp [cover]
  | cons x xs ih =>
    rw [List.forall_mem_cons, ← ih]
    exact sup_le_iff

theorem le_cover {xs : List B} {x : B} (h : x ∈ xs) : x ≤ cover xs :=
  cover_le_iff.mp le_rfl x h

theorem disjoint_cover_iff {x : B} {xs : List B} :
    Disjoint x (cover xs) ↔ ∀ y ∈ xs, Disjoint x y := by
  induction xs with
  | nil => simp [cover]
  | cons y xs ih =>
    rw [List.forall_mem_cons, ← ih]
    exact disjoint_sup_right

theorem cover_map_inf (xs : List B) (y : B) : cover (xs.map (· ⊓ y)) = cover xs ⊓ y := by
  induction xs with
  | nil => exact (bot_inf_eq y).symm
  | cons x xs ih =>
    change x ⊓ y ⊔ cover (xs.map (· ⊓ y)) = (x ⊔ cover xs) ⊓ y
    rw [ih, inf_sup_right]

/-- An atom lies within one of the places that cover it. -/
theorem atom_le_cover_iff {a : B} (ha : IsAtom a) {xs : List B} :
    a ≤ cover xs ↔ ∃ x ∈ xs, a ≤ x := by
  constructor
  · intro hle
    induction xs with
    | nil => exact absurd (le_bot_iff.mp hle) ha.1
    | cons x xs ih =>
      by_cases hx : a ≤ x
      · exact ⟨x, List.mem_cons_self, hx⟩
      · have hdisjoint : Disjoint a x := not_not.mp (mt ha.not_disjoint_iff_le.mp hx)
        obtain ⟨y, hy, hay⟩ := ih (hdisjoint.left_le_of_le_sup_left hle)
        exact ⟨y, List.mem_cons_of_mem x hy, hay⟩
  · rintro ⟨x, hx, hax⟩
    exact hax.trans (le_cover hx)

namespace IsContent

variable {m : B → α}

theorem inf_add_sdiff (h : IsContent m) (x y : B) : m (x ⊓ y) + m (x \ y) = m x := by
  rw [← h.add _ _ disjoint_inf_sdiff, sup_inf_sdiff]

/-- What places have in common with a given one is measured by a content, too. -/
theorem restrict (h : IsContent m) (y : B) : IsContent fun x => m (y ⊓ x) where
  nonneg x := h.nonneg (y ⊓ x)
  add x z hxz := by rw [inf_sup_left, h.add _ _ (hxz.mono inf_le_right inf_le_right)]

variable [IsStrictOrderedRing α]

theorem bot (h : IsContent m) : m ⊥ = 0 := by
  have hbot := h.add ⊥ ⊥ disjoint_bot_left
  rw [sup_idem] at hbot
  linarith

theorem mono (h : IsContent m) {x y : B} (hxy : x ≤ y) : m x ≤ m y := by
  have hsplit := h.inf_add_sdiff y x
  rw [inf_eq_right.mpr hxy] at hsplit
  linarith [h.nonneg (y \ x)]

theorem sup_add_inf (h : IsContent m) (x y : B) : m (x ⊔ y) + m (x ⊓ y) = m x + m y := by
  have hsup : m (x ⊔ y) = m x + m (y \ x) := by
    rw [← h.add _ _ disjoint_sdiff_self_right, sup_sdiff_self_right]
  have hsplit := h.inf_add_sdiff y x
  rw [inf_comm] at hsplit
  linarith

theorem eq_zero_of_le (h : IsContent m) {x y : B} (hxy : x ≤ y) (hy : m y = 0) : m x = 0 :=
  le_antisymm (hy ▸ h.mono hxy) (h.nonneg x)

theorem cover_le_sum (h : IsContent m) (xs : List B) : m (cover xs) ≤ (xs.map m).sum := by
  induction xs with
  | nil => exact h.bot.le
  | cons x xs ih =>
    have hsup := h.sup_add_inf x (cover xs)
    rw [List.map_cons, List.sum_cons]
    change m (x ⊔ cover xs) ≤ _
    linarith [h.nonneg (x ⊓ cover xs)]

theorem inf_cover_eq_zero_iff (h : IsContent m) (x : B) (xs : List B) :
    m (x ⊓ cover xs) = 0 ↔ ∀ y ∈ xs, m (x ⊓ y) = 0 := by
  induction xs with
  | nil =>
    have hbot : x ⊓ cover ([] : List B) = ⊥ := inf_bot_eq x
    simp [hbot, h.bot]
  | cons y xs ih =>
    have hcover : x ⊓ cover (y :: xs) = x ⊓ y ⊔ x ⊓ cover xs := inf_sup_left x y (cover xs)
    rw [hcover, List.forall_mem_cons, ← ih]
    constructor
    · intro hzero
      exact ⟨h.eq_zero_of_le le_sup_left hzero, h.eq_zero_of_le le_sup_right hzero⟩
    · rintro ⟨hy, hxs⟩
      have hsup := h.sup_add_inf (x ⊓ y) (x ⊓ cover xs)
      have hinf := h.eq_zero_of_le (inf_le_left : x ⊓ y ⊓ (x ⊓ cover xs) ≤ _) hy
      linarith

/-- The sum of the parts is the size of what they cover if and only if no two of them share
anything. -/
theorem sum_eq_cover_iff (h : IsContent m) (xs : List B) :
    (xs.map m).sum = m (cover xs) ↔ xs.Pairwise fun x y => m (x ⊓ y) = 0 := by
  induction xs with
  | nil =>
    have hbot : m (cover ([] : List B)) = 0 := h.bot
    simp [hbot]
  | cons x xs ih =>
    have hsup := h.sup_add_inf x (cover xs)
    have hle := h.cover_le_sum xs
    have hnonneg := h.nonneg (x ⊓ cover xs)
    rw [List.pairwise_cons, ← ih, ← h.inf_cover_eq_zero_iff, List.map_cons, List.sum_cons]
    change _ = m (x ⊔ cover xs) ↔ _
    constructor
    · intro heq
      constructor <;> linarith
    · rintro ⟨hzero, heq⟩
      linarith

/-- Places that cover another one and have at most nothing of it in common two by two have in all
as much of it as there is. -/
theorem sum_inf_eq {y : B} (h : IsContent fun x => m (y ⊓ x)) {xs : List B} (hcover : y ≤ cover xs)
    (hnull : xs.Pairwise fun a b => m (y ⊓ (a ⊓ b)) = 0) : (xs.map fun x => m (y ⊓ x)).sum = m y := by
  rw [(h.sum_eq_cover_iff xs).mpr hnull, inf_eq_left.mpr hcover]

end IsContent

namespace Region

variable {ρ ε : Type} [Region ρ α ε]

/-- Regions take up places. -/
structure Placed (place : ρ → B) : Prop where
  meet_place (a b : ρ) : ∃ p, meet a b = .ok p ∧ place p = place a ⊓ place b
  union_place (rs : List ρ) (u : ρ) : union rs = .ok u → place u = cover (rs.map place)
  isEmpty_iff (r : ρ) : isEmpty r = true ↔ place r = ⊥
  disjoint_of_far (a b : ρ) : isNear a b = false → Disjoint (place a) (place b)

/-- The parts of a region are measured by a content of places. -/
structure Gauged (place : ρ → B) (m : B → α) (d : Int) (q : ρ) : Prop where
  isContent : IsContent fun x => m (place q ⊓ x)
  measure_eq (r : ρ) : place r ≤ place q → measure d r = m (place r)

/-- Regions take up places, and measures are contents of places. -/
structure Measured (place : ρ → B) (μ : Int → B → α) : Prop extends Placed place where
  dimension_mono (a b : ρ) : place a ≤ place b → dimension a ≤ dimension b
  measure_eq (d : Int) (r : ρ) : dimension r ≤ d → measure d r = μ d (place r)
  isContent (d : Int) (r : ρ) : dimension r ≤ d → IsContent fun x => μ d (place r ⊓ x)

namespace Placed

variable {place : ρ → B}

omit [Field α] [LinearOrder α] in
theorem place_of_meet (h : Placed place) {a b p : ρ} (hp : meet a b = .ok p) :
    place p = place a ⊓ place b := by
  obtain ⟨q, hq, hplace⟩ := h.meet_place a b
  rw [hp, Except.ok.injEq] at hq
  rw [hq, hplace]

omit [Field α] [LinearOrder α] in
theorem lossless (h : Placed place) : Lossless ρ where
  meet_of_far a b hfar := by
    obtain ⟨p, hp, hplace⟩ := h.meet_place a b
    refine ⟨p, hp, (h.isEmpty_iff p).mpr ?_⟩
    rw [hplace]
    exact (h.disjoint_of_far a b hfar).eq_bot
  meet_of_part_of_far a b c k hk hfar := by
    obtain ⟨p, hp, hplace⟩ := h.meet_place k c
    refine ⟨p, hp, (h.isEmpty_iff p).mpr ?_⟩
    rw [hplace, h.place_of_meet hk, inf_assoc, (h.disjoint_of_far c b hfar).symm.eq_bot, inf_bot_eq]

end Placed

namespace Gauged

variable {place : ρ → B} {m : B → α} {d : Int} {q : ρ}

theorem nonneg (h : Gauged place m d q) : 0 ≤ m (place q) := by
  have hnonneg := h.isContent.nonneg (place q)
  rwa [inf_idem] at hnonneg

theorem part (h : Gauged place m d q) {r : ρ} (hr : place r ≤ place q) : Gauged place m d r where
  isContent := by
    have hrestrict := h.isContent.restrict (place r)
    simpa only [← inf_assoc, inf_eq_right.mpr hr] using hrestrict
  measure_eq s hs := h.measure_eq s (hs.trans hr)

/-- The clip of a gauged region is gauged. -/
theorem clip (h : Gauged place m d q) (hp : Placed place) {b p : ρ} (hmeet : meet q b = .ok p) :
    Gauged place m d p :=
  h.part ((hp.place_of_meet hmeet).trans_le inf_le_left)

/-- The measure of a part of a region, by the place of the part. -/
theorem measure_of_meet (h : Gauged place m d q) (hp : Placed place) {b p : ρ}
    (hmeet : meet q b = .ok p) : measure d p = m (place q ⊓ place b) := by
  have hplace := hp.place_of_meet hmeet
  rw [h.measure_eq p (hplace.trans_le inf_le_left), hplace]

theorem measure_of_isEmpty [IsStrictOrderedRing α] (h : Gauged place m d q) (hp : Placed place)
    (hempty : isEmpty q = true) : measure d q = 0 := by
  have hbot := h.isContent.bot
  rw [inf_bot_eq] at hbot
  rw [h.measure_eq q le_rfl, (hp.isEmpty_iff q).mp hempty, hbot]

end Gauged

theorem Measured.gauged {place : ρ → B} {μ : Int → B → α} (h : Measured place μ) {d : Int} {q : ρ}
    (hq : dimension q ≤ d) : Gauged place (μ d) d q where
  isContent := h.isContent d q hq
  measure_eq r hr := h.measure_eq d r ((h.dimension_mono r q hr).trans hq)

/-- Interiors of regions in the plane; what lies between a region and its interior has no area. -/
structure Planar (place interior : ρ → B) (μ : Int → B → α) : Prop where
  dimension_le (r : ρ) : dimension r ≤ 2
  interior_le (r : ρ) : interior r ≤ place r
  boundary_null (r : ρ) : μ 2 (place r \ interior r) = 0

/-- Areas are measured by a content of places. -/
structure Areas (place interior : ρ → B) (area : B → α) : Prop where
  isContent (r : ρ) : IsContent fun x => area (place r ⊓ x)
  measure_eq (r : ρ) : measure 2 r = area (place r)
  interior_le (r : ρ) : interior r ≤ place r
  boundary_null (r : ρ) : area (place r \ interior r) = 0

theorem Planar.areas {place interior : ρ → B} {μ : Int → B → α} (hp : Planar place interior μ)
    (hm : Measured place μ) : Areas place interior (μ 2) where
  isContent r := hm.isContent 2 r (hp.dimension_le r)
  measure_eq r := hm.measure_eq 2 r (hp.dimension_le r)
  interior_le := hp.interior_le
  boundary_null := hp.boundary_null

theorem Areas.gauged {place interior : ρ → B} {area : B → α} (ha : Areas place interior area) (q : ρ) :
    Gauged place area 2 q where
  isContent := ha.isContent q
  measure_eq r _ := ha.measure_eq r

/-- Regions with disjoint interiors share at most boundaries. -/
theorem Areas.null_inf [IsStrictOrderedRing α] {place interior : ρ → B} {area : B → α}
    (ha : Areas place interior area) {a b : ρ} (h : Disjoint (interior a) (interior b)) (r : ρ) :
    area (place r ⊓ (place a ⊓ place b)) = 0 := by
  have hnull (s : ρ) : area (place r ⊓ (place s \ interior s)) = 0 := by
    have hle : place r ⊓ (place s \ interior s) ≤ place s \ interior s := inf_le_right
    have hin : place s \ interior s ≤ place s := sdiff_le
    have hzero := (ha.isContent s).eq_zero_of_le hle
      (by rw [inf_eq_right.mpr hin, ha.boundary_null])
    rwa [inf_eq_right.mpr (hle.trans hin)] at hzero
  have hcover : place a ⊓ place b ≤ place a \ interior a ⊔ place b \ interior b :=
    calc place a ⊓ place b ≤ (place a \ interior a ⊔ interior a) ⊓ place b :=
          inf_le_inf_right _ le_sdiff_sup
      _ = place a \ interior a ⊓ place b ⊔ interior a ⊓ place b := inf_sup_right _ _ _
      _ ≤ place a \ interior a ⊔ place b \ interior b :=
          sup_le_sup inf_le_left (le_sdiff.mpr ⟨inf_le_right, h.mono_left inf_le_left⟩)
  have hcontent := ha.isContent r
  refine hcontent.eq_zero_of_le hcover ?_
  have hsup := hcontent.sup_add_inf (place a \ interior a) (place b \ interior b)
  have hinf := hcontent.eq_zero_of_le
    (inf_le_left : place a \ interior a ⊓ place b \ interior b ≤ _) (hnull a)
  simp only [hnull] at hsup
  linarith

end Region

end Gridding
