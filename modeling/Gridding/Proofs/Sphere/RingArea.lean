import Gridding.Sphere.RingArea
import Mathlib

/-!
# Ring areas over the reals

Over the real numbers an edge adds exactly the integral of the sine of the latitude over its
longitudes. So the sum around a ring is that of its edges as curves: it does not depend on where
the ring starts and on further vertices on its edges, it changes its sign when the ring is
reversed, and the sums around two pieces of a ring add up to that around the ring.
-/

noncomputable section

namespace Gridding

open intervalIntegral

instance : SphereNumber ℝ where
  radians d := d * (Real.pi / 180)
  middle a b := (a + b) / 2
  sin := Real.sin
  flatness d := Real.sinc (d / 2)
  sum := List.sum
  abs x := |x|

namespace Ring

/-! ## Edges -/

section Edges

variable {p q m : ℝ × ℝ}

theorem edgeTerm_eq (p q : ℝ × ℝ) : edgeTerm p q =
    (q.1 - p.1) * Real.sin ((p.2 + q.2) / 2) * Real.sinc ((q.2 - p.2) / 2) := rfl

theorem inRadians_eq (p : ℝ × ℝ) : inRadians p = (Real.pi / 180) • p :=
  Prod.ext (mul_comm _ _) (mul_comm _ _)

theorem sinc_mul_self (h : ℝ) : Real.sinc h * h = Real.sin h := by
  by_cases hh : h = 0
  · simp [hh]
  · rw [Real.sinc_of_ne_zero hh, div_mul_cancel₀ _ hh]

theorem cos_sub_cos_eq (a b : ℝ) : Real.cos a - Real.cos b =
    (b - a) * Real.sin ((a + b) / 2) * Real.sinc ((b - a) / 2) := by
  rw [Real.cos_sub_cos, ← neg_sub b a, neg_div, Real.sin_neg, ← sinc_mul_self ((b - a) / 2)]
  ring

theorem edgeTerm_self (p : ℝ × ℝ) : edgeTerm p p = 0 := by
  simp [edgeTerm_eq]

theorem edgeTerm_swap (p q : ℝ × ℝ) : edgeTerm q p = -edgeTerm p q := by
  rw [edgeTerm_eq, edgeTerm_eq, add_comm q.2, ← neg_sub q.2 p.2, neg_div, Real.sinc_neg]
  ring

theorem edgeTerm_of_flat (h : q.2 = p.2) : edgeTerm p q = (q.1 - p.1) * Real.sin p.2 := by
  rw [edgeTerm_eq, h, sub_self, zero_div, Real.sinc_zero, mul_one, add_self_div_two]

/-- Along an edge whose longitude grows in proportion to its latitude, the integral is a difference
of cosines. -/
theorem edgeTerm_of_slope {k : ℝ} (h : q.1 - p.1 = k * (q.2 - p.2)) :
    edgeTerm p q = k * (Real.cos p.2 - Real.cos q.2) := by
  rw [edgeTerm_eq, h, cos_sub_cos_eq]
  ring

/-- The two parts of an edge add up to it. -/
theorem edgeTerm_split {t : ℝ} (h : m = p + t • (q - p)) :
    edgeTerm p m + edgeTerm m q = edgeTerm p q := by
  subst h
  by_cases hflat : q.2 = p.2
  · have hfirst : (p + t • (q - p)).2 = p.2 := by simp [hflat]
    rw [edgeTerm_of_flat hfirst, edgeTerm_of_flat (hflat.trans hfirst.symm), edgeTerm_of_flat hflat,
      hfirst]
    ring
  · have hne : q.2 - p.2 ≠ 0 := sub_ne_zero.mpr hflat
    have hwhole : q.1 - p.1 = (q.1 - p.1) / (q.2 - p.2) * (q.2 - p.2) := by field_simp
    have hfirst : (p + t • (q - p)).1 - p.1 =
        (q.1 - p.1) / (q.2 - p.2) * ((p + t • (q - p)).2 - p.2) := by
      simp
      field_simp
    have hsecond : q.1 - (p + t • (q - p)).1 =
        (q.1 - p.1) / (q.2 - p.2) * (q.2 - (p + t • (q - p)).2) := by
      simp
      field_simp
      ring
    rw [edgeTerm_of_slope hfirst, edgeTerm_of_slope hsecond, edgeTerm_of_slope hwhole]
    ring

/-- The integral of the sine of the latitude over the longitudes of an edge given in degrees. -/
def sineAlong (p q : ℝ × ℝ) : ℝ :=
  ∫ t in (0 : ℝ)..1, Real.sin (SphereNumber.radians (p.2 + t * (q.2 - p.2))) *
    (SphereNumber.radians q.1 - SphereNumber.radians p.1)

theorem integral_sin_line (a d : ℝ) :
    ∫ t in (0 : ℝ)..1, Real.sin (a + t * d) = Real.sin (a + d / 2) * Real.sinc (d / 2) := by
  by_cases hd : d = 0
  · simp [hd]
  · simp only [mul_comm _ d]
    rw [integral_comp_add_mul (fun x => Real.sin x) hd a, mul_zero, mul_one, add_zero, integral_sin,
      smul_eq_mul, cos_sub_cos_eq, show (a + (a + d)) / 2 = a + d / 2 by ring, add_sub_cancel_left,
      mul_assoc, inv_mul_cancel_left₀ hd]

theorem edgeTerm_inRadians (p q : ℝ × ℝ) :
    edgeTerm (inRadians p) (inRadians q) = sineAlong p q := by
  have hline : ∀ t : ℝ, Real.sin (SphereNumber.radians (p.2 + t * (q.2 - p.2))) =
      Real.sin ((inRadians p).2 + t * ((inRadians q).2 - (inRadians p).2)) := fun t =>
    congrArg Real.sin (show (p.2 + t * (q.2 - p.2)) * (Real.pi / 180) = p.2 * (Real.pi / 180) +
      t * (q.2 * (Real.pi / 180) - p.2 * (Real.pi / 180)) by ring)
  simp only [sineAlong, hline]
  rw [integral_mul_const, integral_sin_line, edgeTerm_eq,
    show ((inRadians p).2 + (inRadians q).2) / 2 =
      (inRadians p).2 + ((inRadians q).2 - (inRadians p).2) / 2 by ring]
  change _ = _ * ((inRadians q).1 - (inRadians p).1)
  ring

end Edges

/-! ## Paths -/

section Paths

theorem signedArea_nil : signedArea ([] : List (ℝ × ℝ)) = 0 := rfl

theorem signedArea_singleton (p : ℝ × ℝ) : signedArea [p] = 0 := rfl

theorem signedArea_cons_cons (p q : ℝ × ℝ) (rest : List (ℝ × ℝ)) :
    signedArea (p :: q :: rest) = sineAlong p q + signedArea (q :: rest) := by
  rw [← edgeTerm_inRadians]
  exact List.sum_cons

theorem signedArea_pair (p q : ℝ × ℝ) : signedArea [p, q] = sineAlong p q := by
  rw [signedArea_cons_cons, signedArea_singleton, add_zero]

/-- Two paths that meet at a vertex add up. -/
theorem signedArea_join (before : List (ℝ × ℝ)) (p : ℝ × ℝ) (after : List (ℝ × ℝ)) :
    signedArea (before ++ p :: after) = signedArea (before ++ [p]) + signedArea (p :: after) := by
  induction before with
  | nil => rw [List.nil_append, List.nil_append, signedArea_singleton, zero_add]
  | cons q before ih =>
    cases before with
    | nil =>
      rw [List.singleton_append, List.singleton_append, signedArea_cons_cons, signedArea_pair]
    | cons r before =>
      simp only [List.cons_append] at ih ⊢
      rw [signedArea_cons_cons, signedArea_cons_cons, ih, add_assoc]

theorem signedArea_eq_sum (path : List (ℝ × ℝ)) :
    signedArea path = (List.zipWith sineAlong path path.tail).sum := by
  induction path with
  | nil => rfl
  | cons p path ih =>
    cases path with
    | nil => rfl
    | cons q rest =>
      rw [signedArea_cons_cons, ih]
      rfl

theorem sineAlong_self (p : ℝ × ℝ) : sineAlong p p = 0 := by
  rw [← edgeTerm_inRadians, edgeTerm_self]

theorem sineAlong_swap (p q : ℝ × ℝ) : sineAlong q p = -sineAlong p q := by
  rw [← edgeTerm_inRadians, ← edgeTerm_inRadians, edgeTerm_swap]

theorem sineAlong_split {p m q : ℝ × ℝ} (h : m ∈ segment ℝ p q) :
    sineAlong p m + sineAlong m q = sineAlong p q := by
  rw [segment_eq_image'] at h
  obtain ⟨t, -, rfl⟩ := h
  simp only [← edgeTerm_inRadians]
  apply edgeTerm_split (t := t)
  simp only [inRadians_eq, smul_add, smul_sub, smul_comm t]

theorem signedArea_reverse (path : List (ℝ × ℝ)) :
    signedArea path.reverse = -signedArea path := by
  induction path with
  | nil => rw [List.reverse_nil, signedArea_nil, neg_zero]
  | cons p path ih =>
    cases path with
    | nil => rw [List.reverse_singleton, signedArea_singleton, neg_zero]
    | cons q rest =>
      rw [List.reverse_cons] at ih
      rw [List.reverse_cons, List.reverse_cons, List.append_assoc, List.singleton_append,
        signedArea_join, ih, signedArea_pair, signedArea_cons_cons, sineAlong_swap]
      ring

/-- A further vertex on an edge changes nothing. -/
theorem signedArea_insert (before : List (ℝ × ℝ)) {p m q : ℝ × ℝ} (after : List (ℝ × ℝ))
    (h : m ∈ segment ℝ p q) :
    signedArea (before ++ p :: m :: q :: after) = signedArea (before ++ p :: q :: after) := by
  rw [signedArea_join, signedArea_join before p (q :: after), signedArea_cons_cons,
    signedArea_cons_cons m, signedArea_cons_cons p q, ← sineAlong_split h]
  ring

end Paths

/-! ## Rings -/

section Rings

variable {vs before between after : List (ℝ × ℝ)} {p q v : ℝ × ℝ}

/-- Once around the vertices of a ring, back to the first one. -/
def closed (vs : List (ℝ × ℝ)) : List (ℝ × ℝ) := vs ++ vs.head?.toList

theorem closed_cons (v : ℝ × ℝ) (vs : List (ℝ × ℝ)) : closed (v :: vs) = v :: (vs ++ [v]) := rfl

/-- Too few vertices to bound an area enclose none, whatever the sum is taken for. -/
theorem area_eq_abs {ring : List (ℝ × ℝ)} (h : ring.head? = ring.getLast?) :
    area ring = |signedArea ring| := by
  by_cases hshort : ring.length < 4
  · rw [area, if_pos hshort]
    have hzero : signedArea ring = 0 := by
      match ring, hshort, h with
      | [], _, _ => rfl
      | [_], _, _ => rfl
      | [p, q], _, h =>
        obtain rfl : p = q := by simpa using h
        rw [signedArea_pair, sineAlong_self]
      | [p, q, r], _, h =>
        obtain rfl : p = r := by simpa using h
        rw [signedArea_cons_cons, signedArea_pair, sineAlong_swap p q, add_neg_cancel]
    rw [hzero, abs_zero]
  · rw [area, if_neg hshort]
    rfl

theorem head?_closed (vs : List (ℝ × ℝ)) : (closed vs).head? = (closed vs).getLast? := by
  cases vs with
  | nil => rfl
  | cons v vs => rw [closed_cons, List.head?_cons, ← List.cons_append, List.getLast?_concat]

theorem area_closed (vs : List (ℝ × ℝ)) : area (closed vs) = |signedArea (closed vs)| :=
  area_eq_abs (head?_closed vs)

theorem signedArea_rotate_one (vs : List (ℝ × ℝ)) :
    signedArea (closed (vs.rotate 1)) = signedArea (closed vs) := by
  match vs with
  | [] => rfl
  | [v] => rw [List.rotate_singleton]
  | v :: w :: vs =>
    rw [List.rotate_cons_succ, List.rotate_zero, List.cons_append, closed_cons, closed_cons,
      List.append_assoc, List.singleton_append, ← List.cons_append, signedArea_join,
      signedArea_pair, List.cons_append, add_comm]
    exact (signedArea_cons_cons v w (vs ++ [v])).symm

theorem signedArea_rotate (vs : List (ℝ × ℝ)) (n : ℕ) :
    signedArea (closed (vs.rotate n)) = signedArea (closed vs) := by
  induction n with
  | zero => rw [List.rotate_zero]
  | succ n ih => rw [← List.rotate_rotate, signedArea_rotate_one, ih]

/-- Both pieces run along the chord, in opposite directions. -/
theorem signedArea_cut (before : List (ℝ × ℝ)) (p : ℝ × ℝ) (between : List (ℝ × ℝ)) (q : ℝ × ℝ)
    (after : List (ℝ × ℝ)) :
    signedArea (closed (p :: between ++ [q])) + signedArea (closed (before ++ p :: q :: after)) =
      signedArea (closed (before ++ p :: (between ++ q :: after))) := by
  have hpiece : signedArea (closed (p :: between ++ [q])) =
      signedArea (p :: (between ++ [q])) - sineAlong p q := by
    rw [List.cons_append, closed_cons, List.append_assoc, List.singleton_append,
      ← List.cons_append, signedArea_join, signedArea_pair, sineAlong_swap p q, List.cons_append]
    ring
  have hrest (last : List (ℝ × ℝ)) : signedArea (before ++ p :: (between ++ q :: after) ++ last) =
      signedArea (before ++ p :: q :: after ++ last) +
        (signedArea (p :: (between ++ [q])) - sineAlong p q) := by
    simp only [List.append_assoc, List.cons_append]
    rw [signedArea_join before p (between ++ _), signedArea_join before p (q :: _),
      signedArea_cons_cons, ← List.cons_append, signedArea_join (p :: between), List.cons_append]
    ring
  have hhead : (before ++ p :: (between ++ q :: after)).head? =
      (before ++ p :: q :: after).head? := by
    cases before <;> rfl
  rw [hpiece, closed, closed, hhead, hrest]
  ring

/-- The corners of a box, from the lower right one on. -/
def corners (west south east north : ℝ) : List (ℝ × ℝ) :=
  [(east, south), (east, north), (west, north), (west, south)]

theorem signedArea_corners (west south east north : ℝ) :
    signedArea (closed (corners west south east north)) =
      -((SphereNumber.radians east - SphereNumber.radians west) *
        (Real.sin (SphereNumber.radians north) - Real.sin (SphereNumber.radians south))) := by
  simp only [corners, closed, List.head?_cons, Option.toList_some, List.cons_append,
    List.nil_append, signedArea_cons_cons, signedArea_singleton]
  simp only [sineAlong, sub_self, mul_zero, add_zero, intervalIntegral.integral_const,
    smul_eq_mul]
  ring

theorem sin_radians_le {south north : ℝ} (hsouth : -90 ≤ south) (hle : south ≤ north)
    (hnorth : north ≤ 90) :
    Real.sin (SphereNumber.radians south) ≤ Real.sin (SphereNumber.radians north) := by
  have hpi := Real.pi_pos
  have hunit : 0 < Real.pi / 180 := by positivity
  change Real.sin (south * (Real.pi / 180)) ≤ Real.sin (north * (Real.pi / 180))
  apply Real.sin_le_sin_of_le_of_le_pi_div_two
  · nlinarith
  · nlinarith
  · nlinarith

theorem area_corners {west south east north : ℝ} (hlon : west ≤ east) (hsouth : -90 ≤ south)
    (hlat : south ≤ north) (hnorth : north ≤ 90) :
    area (closed (corners west south east north)) =
      (SphereNumber.radians east - SphereNumber.radians west) *
        (Real.sin (SphereNumber.radians north) - Real.sin (SphereNumber.radians south)) := by
  have hunit : 0 ≤ Real.pi / 180 := by positivity
  have hwidth : 0 ≤ (SphereNumber.radians east : ℝ) - SphereNumber.radians west :=
    sub_nonneg.mpr (mul_le_mul_of_nonneg_right hlon hunit)
  have hheight := sub_nonneg.mpr (sin_radians_le hsouth hlat hnorth)
  rw [area_closed, signedArea_corners, abs_neg, abs_of_nonneg (mul_nonneg hwidth hheight)]

/-- The sum around a ring is an integral along its edges. -/
structure EdgeIntegral (vs : List (ℝ × ℝ)) : Prop where
  eq_sum : signedArea (closed vs) = (List.zipWith sineAlong (closed vs) (closed vs).tail).sum
  reverse : area (closed vs).reverse = area (closed vs)
  rotate : ∀ n, area (closed (vs.rotate n)) = area (closed vs)
  insert : ∀ before p m q after, closed vs = before ++ p :: q :: after → m ∈ segment ℝ p q →
    area (before ++ p :: m :: q :: after) = area (closed vs)
  /-- A chord from one vertex to another cuts the ring into two. -/
  cut : ∀ before p between q after, vs = before ++ p :: (between ++ q :: after) →
    signedArea (closed (p :: between ++ [q])) + signedArea (closed (before ++ p :: q :: after)) =
      signedArea (closed vs)
  /-- The areas of the pieces add up unless the pieces are of opposite orientations. -/
  area_cut : ∀ before p between q after, vs = before ++ p :: (between ++ q :: after) →
    (area (closed vs) =
        area (closed (p :: between ++ [q])) + area (closed (before ++ p :: q :: after)) ↔
      0 ≤ signedArea (closed (p :: between ++ [q])) *
        signedArea (closed (before ++ p :: q :: after)))
  box : ∀ west south east north, vs = corners west south east north → west ≤ east →
    -90 ≤ south → south ≤ north → north ≤ 90 →
    area (closed vs) = (SphereNumber.radians east - SphereNumber.radians west) *
      (Real.sin (SphereNumber.radians north) - Real.sin (SphereNumber.radians south))

theorem edgeIntegral_closed (vs : List (ℝ × ℝ)) : EdgeIntegral vs where
  eq_sum := signedArea_eq_sum _
  reverse := by
    have hends : (closed vs).reverse.head? = (closed vs).reverse.getLast? := by
      rw [List.head?_reverse, List.getLast?_reverse, head?_closed]
    rw [area_eq_abs hends, area_closed, signedArea_reverse, abs_neg]
  rotate n := by rw [area_closed, area_closed, signedArea_rotate]
  insert before p m q after hring hm := by
    have hends := head?_closed vs
    have hhead : (before ++ p :: m :: q :: after).head? = (before ++ p :: q :: after).head? := by
      cases before <;> rfl
    have hlast : (before ++ p :: m :: q :: after).getLast? =
        (before ++ p :: q :: after).getLast? := by
      simp only [List.getLast?_append, List.getLast?_cons_cons]
    rw [hring] at hends ⊢
    rw [area_eq_abs hends, area_eq_abs (hhead.trans (hends.trans hlast.symm)),
      signedArea_insert before after hm]
  cut before p between q after hvs := hvs ▸ signedArea_cut before p between q after
  area_cut before p between q after hvs := by
    rw [hvs, area_closed, area_closed, area_closed, ← signedArea_cut before p between q after,
      abs_add_eq_add_abs_iff, mul_nonneg_iff]
  box west south east north hvs hlon hsouth hlat hnorth :=
    hvs ▸ area_corners hlon hsouth hlat hnorth

/-- An eighth of the sphere. -/
theorem edgeIntegral_octant : EdgeIntegral (corners 0 0 90 90) ∧
    area (closed (corners 0 0 90 90)) = Real.pi / 2 := by
  have hintegral := edgeIntegral_closed (corners 0 0 90 90)
  have hquarter : (SphereNumber.radians 90 : ℝ) = Real.pi / 2 := by
    change (90 : ℝ) * (Real.pi / 180) = Real.pi / 2
    ring
  have hzero : (SphereNumber.radians 0 : ℝ) = 0 := zero_mul _
  refine ⟨hintegral, ?_⟩
  rw [hintegral.box 0 0 90 90 rfl (by norm_num) (by norm_num) (by norm_num) le_rfl, hquarter, hzero,
    Real.sin_pi_div_two, Real.sin_zero, sub_zero, sub_zero, mul_one]

end Rings

end Ring

end Gridding

end
