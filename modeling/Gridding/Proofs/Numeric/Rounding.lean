import Gridding.Proofs.Numeric.Doubles

/-!
# Rounding to doubles

Each double has an interval of numbers to which it is the nearest, with the ends if its mantissa is
even. A quotient is rounded to the double in whose interval it lies. So a number that is a double is
not changed by rounding.
-/

namespace Gridding

/-- A power with an integer exponent, from the powers that integers are multiplied by. -/
theorem zpow_eq_div (a : ℚ) (q : ℤ) : a ^ q = a ^ q.toNat / a ^ (-q).toNat := by
  rcases Int.le_total 0 q with hq | hq
  · obtain ⟨k, rfl⟩ := Int.eq_ofNat_of_zero_le hq
    simp
  · obtain ⟨k, rfl⟩ : ∃ k : ℕ, q = -k := ⟨(-q).toNat, by omega⟩
    simp

/-- A quotient in units of a power, from the powers that its parts are multiplied by. -/
theorem scaled_eq (num den : ℕ) {a : ℕ} (ha : 0 < a) (q : ℤ) :
    ((num * a ^ (-q).toNat : ℕ) : ℚ) / (den * a ^ q.toNat : ℕ) = num / den / (a : ℚ) ^ q := by
  rw [zpow_eq_div a q]
  push_cast
  field_simp

/-- Is a power at most a quotient? -/
theorem zpow_le_div_iff {num den a : ℕ} (hden : 0 < den) (ha : 0 < a) (q : ℤ) :
    den * a ^ q.toNat ≤ num * a ^ (-q).toNat ↔ (a : ℚ) ^ q ≤ num / den := by
  have hpos : (0 : ℚ) < (den * a ^ q.toNat : ℕ) := by positivity
  have hunit : (0 : ℚ) < (a : ℚ) ^ q := by positivity
  rw [← one_le_div hunit, ← scaled_eq num den ha, one_le_div hpos, Nat.cast_le]

/-- A quotient is rounded to an integer that is nearest to it, and to the even one of two. -/
theorem roundDiv_toEven {num den m : ℕ} (hden : 0 < den) (hlow : (m : ℚ) - 1 / 2 ≤ num / den)
    (hhigh : (num : ℚ) / den ≤ m + 1 / 2)
    (hodd : m % 2 = 1 → (m : ℚ) - 1 / 2 < num / den ∧ (num : ℚ) / den < m + 1 / 2) :
    roundDiv num den .toEven = m := by
  have hpos : (0 : ℚ) < den := by exact_mod_cast hden
  have hlowNat : 2 * (m * den) ≤ 2 * num + den := by
    rw [le_div_iff₀ hpos] at hlow
    have hcast : (2 * (m * den) : ℚ) ≤ 2 * num + den := by linarith
    exact_mod_cast hcast
  have hhighNat : 2 * num ≤ 2 * (m * den) + den := by
    rw [div_le_iff₀ hpos] at hhigh
    have hcast : (2 * num : ℚ) ≤ 2 * (m * den) + den := by linarith
    exact_mod_cast hcast
  have hoddNat : m % 2 = 1 → 2 * (m * den) < 2 * num + den ∧ 2 * num < 2 * (m * den) + den := by
    intro h
    obtain ⟨hl, hh⟩ := hodd h
    rw [lt_div_iff₀ hpos] at hl
    rw [div_lt_iff₀ hpos] at hh
    have hcastl : (2 * (m * den) : ℚ) < 2 * num + den := by linarith
    have hcasth : (2 * num : ℚ) < 2 * (m * den) + den := by linarith
    exact ⟨by exact_mod_cast hcastl, by exact_mod_cast hcasth⟩
  have hsplit := Nat.div_add_mod num den
  have hrest := Nat.mod_lt num hden
  rw [roundDiv]
  generalize num / den = k at hsplit ⊢
  generalize num % den = r at hsplit hrest ⊢
  have hle : m ≤ k + 1 := by
    by_contra! h
    have hmul := Nat.mul_le_mul_right den h
    nlinarith
  have hge : k ≤ m := by
    by_contra! h
    have hmul := Nat.mul_le_mul_right den h
    nlinarith
  obtain rfl | rfl : m = k ∨ m = k + 1 := by omega
  · have hcomm := Nat.mul_comm den m
    split_ifs <;> omega
  · have hexpand : (k + 1) * den = den * k + den := by ring
    split_ifs <;> omega

namespace Binary

/-- How far below the double with a mantissa and an exponent numbers are rounded to it, in units of
its last bit. Below a power of two the gap to the next double is half as wide. -/
def reach (m : ℕ) (q : ℤ) : ℚ := if m = 2 ^ 52 ∧ -1074 < q then 1 / 4 else 1 / 2

/-- The numbers to which the double with a mantissa and an exponent is the nearest. -/
structure RoundsTo (m : ℕ) (q : ℤ) (v : ℚ) : Prop where
  low : (m - reach m q) * 2 ^ q ≤ v
  high : v ≤ (m + 1 / 2) * 2 ^ q
  odd : m % 2 = 1 → (m - reach m q) * 2 ^ q < v ∧ v < (m + 1 / 2) * 2 ^ q

variable {m num den : ℕ} {q : ℤ} {v : ℚ}

theorem reach_le (m : ℕ) (q : ℤ) : reach m q ≤ 1 / 2 := by
  rw [reach]
  split_ifs <;> norm_num

theorem reach_pos (m : ℕ) (q : ℤ) : 0 < reach m q := by
  rw [reach]
  split_ifs <;> norm_num

theorem RoundsTo.of_lt (hlow : (m - reach m q) * 2 ^ q < v) (hhigh : v < (m + 1 / 2) * 2 ^ q) :
    RoundsTo m q v := ⟨hlow.le, hhigh.le, fun _ => ⟨hlow, hhigh⟩⟩

theorem roundsTo_iff_of_even (h : m % 2 = 0) :
    RoundsTo m q v ↔ (m - reach m q) * 2 ^ q ≤ v ∧ v ≤ (m + 1 / 2) * 2 ^ q :=
  ⟨fun hv => ⟨hv.low, hv.high⟩, fun hv => ⟨hv.1, hv.2, fun hodd => by omega⟩⟩

theorem roundsTo_iff_of_odd (h : m % 2 = 1) :
    RoundsTo m q v ↔ (m - reach m q) * 2 ^ q < v ∧ v < (m + 1 / 2) * 2 ^ q :=
  ⟨fun hv => hv.odd h, fun hv => .of_lt hv.1 hv.2⟩

/-- A double rounds to itself. -/
theorem roundsTo_self (m : ℕ) (q : ℤ) : RoundsTo m q (m * 2 ^ q) := by
  have hunit : (0 : ℚ) < 2 ^ q := by positivity
  have hreach := reach_pos m q
  exact .of_lt (by nlinarith) (by nlinarith)

section Exponent

theorem fits_iff (hden : 0 < den) (q : ℤ) :
    num * 2 ^ (-q).toNat < 2 ^ 53 * (den * 2 ^ q.toNat) ↔ (num / den : ℚ) < 2 ^ 53 * 2 ^ q := by
  have hpos : (0 : ℚ) < (den * 2 ^ q.toNat : ℕ) := by positivity
  have hunit : (0 : ℚ) < 2 ^ q := by positivity
  have hscaled := scaled_eq num den two_pos q
  rw [Nat.cast_two] at hscaled
  rw [← div_lt_iff₀ hunit, ← hscaled, div_lt_iff₀ hpos]
  exact_mod_cast Iff.rfl

theorem two_pow_mul (k : ℕ) (q : ℤ) : (2 : ℚ) ^ k * 2 ^ q = 2 ^ (k + q) := by
  rw [zpow_add₀ two_ne_zero, zpow_natCast]

theorem log2_bounds (hnum : 0 < num) (hden : 0 < den) :
    2 ^ ((num.log2 : ℤ) - den.log2 - 1) < (num / den : ℚ) ∧
      (num / den : ℚ) < 2 ^ ((num.log2 : ℤ) - den.log2 + 1) := by
  have hpos : (0 : ℚ) < den := by exact_mod_cast hden
  have hnumLow : (2 : ℚ) ^ num.log2 ≤ num := by exact_mod_cast Nat.log2_self_le hnum.ne'
  have hnumHigh : (num : ℚ) < 2 ^ (num.log2 + 1) := by exact_mod_cast Nat.lt_log2_self
  have hdenLow : (2 : ℚ) ^ den.log2 ≤ den := by exact_mod_cast Nat.log2_self_le hden.ne'
  have hdenHigh : (den : ℚ) < 2 ^ (den.log2 + 1) := by exact_mod_cast Nat.lt_log2_self
  constructor
  · rw [lt_div_iff₀ hpos]
    calc (2 : ℚ) ^ ((num.log2 : ℤ) - den.log2 - 1) * den
        < 2 ^ ((num.log2 : ℤ) - den.log2 - 1) * 2 ^ (den.log2 + 1) := by gcongr
      _ = 2 ^ num.log2 := by
        rw [← zpow_natCast, ← zpow_natCast, ← zpow_add₀ two_ne_zero]
        congr 1
        push_cast
        ring
      _ ≤ num := hnumLow
  · rw [div_lt_iff₀ hpos]
    calc (num : ℚ) < 2 ^ (num.log2 + 1) := hnumHigh
      _ = 2 ^ ((num.log2 : ℤ) - den.log2 + 1) * 2 ^ den.log2 := by
        rw [← zpow_natCast, ← zpow_natCast, ← zpow_add₀ two_ne_zero]
        congr 1
        push_cast
        ring
      _ ≤ 2 ^ ((num.log2 : ℤ) - den.log2 + 1) * den := by gcongr

/-- The last of the 53 leading bits has the exponent for which the quotient is that many bits
wide. -/
theorem lastExponent_spec (hnum : 0 < num) (hden : 0 < den) :
    2 ^ 52 * 2 ^ lastExponent num den ≤ (num / den : ℚ) ∧
      (num / den : ℚ) < 2 ^ 53 * 2 ^ lastExponent num den := by
  obtain ⟨hlow, hhigh⟩ := log2_bounds hnum hden
  rw [two_pow_mul, two_pow_mul, lastExponent]
  generalize hq : (num.log2 : ℤ) - den.log2 - 52 = q
  have hlow' : 2 ^ (51 + q) < (num / den : ℚ) := by
    rwa [show 51 + q = (num.log2 : ℤ) - den.log2 - 1 by omega]
  have hhigh' : (num / den : ℚ) < 2 ^ (53 + q) := by
    rwa [show 53 + q = (num.log2 : ℤ) - den.log2 + 1 by omega]
  have hfits : ∀ q : ℤ, num * Nat.pow 2 (-q).toNat < Nat.pow 2 53 * (den * Nat.pow 2 q.toNat) ↔
      (num / den : ℚ) < 2 ^ (53 + q) := fun q => by
    have hpow : (2 : ℚ) ^ (53 + q) = 2 ^ 53 * 2 ^ q := (two_pow_mul 53 q).symm
    rw [hpow]
    exact fits_iff hden q
  simp only [decide_eq_true_eq, hfits]
  split_ifs with hnarrow
  · exact ⟨by rw [show ((52 : ℕ) : ℤ) + (q - 1) = 51 + q by omega]; exact hlow'.le, hnarrow⟩
  · rw [show 53 + (q - 1) = ((52 : ℕ) : ℤ) + q by omega, not_lt] at hnarrow
    exact ⟨hnarrow, hhigh'⟩

/-- A number that is at least 53 bits wide from one exponent on, and at most from another one. -/
theorem exponent_le {q' : ℤ} (hlow : 2 ^ 52 * 2 ^ q ≤ v) (hhigh : v < 2 ^ 53 * 2 ^ q') : q ≤ q' := by
  have hlt := hlow.trans_lt hhigh
  rw [two_pow_mul, two_pow_mul, zpow_lt_zpow_iff_right₀ one_lt_two] at hlt
  omega

end Exponent

section Round

/-- Over the exponent of a double, a quotient is rounded to the mantissa of the double. -/
theorem roundDiv_eq (hden : 0 < den) (h : RoundsTo m q (num / den)) :
    roundDiv (num * 2 ^ (-q).toNat) (den * 2 ^ q.toNat) .toEven = m := by
  have hunit : (0 : ℚ) < 2 ^ q := by positivity
  have hreach := reach_le m q
  obtain ⟨hlow, hhigh, hodd⟩ := h
  rw [← le_div_iff₀ hunit] at hlow
  rw [← div_le_iff₀ hunit] at hhigh
  rw [← lt_div_iff₀ hunit, ← div_lt_iff₀ hunit] at hodd
  apply roundDiv_toEven (by positivity)
  all_goals rw [scaled_eq _ _ two_pos, Nat.cast_two]
  · linarith
  · exact hhigh
  · exact fun hm => ⟨by linarith [(hodd hm).1], (hodd hm).2⟩

theorem RoundsTo.pos (h : RoundsTo m q v) (hm : 0 < m) : 0 < v := by
  have hunit : (0 : ℚ) < 2 ^ q := by positivity
  have hreach := reach_le m q
  have hone : (1 : ℚ) ≤ m := by exact_mod_cast hm
  exact lt_of_lt_of_le (by nlinarith) h.low

theorem RoundsTo.lt (h : RoundsTo m q v) (hm : m < 2 ^ 53) : v < 2 ^ 53 * 2 ^ q := by
  have hunit : (0 : ℚ) < 2 ^ q := by positivity
  have hle : (m : ℚ) + 1 ≤ 2 ^ 53 := by exact_mod_cast hm
  exact lt_of_le_of_lt h.high (by nlinarith)

theorem two_zpow_pred (q : ℤ) : (2 : ℚ) ^ q = 2 * 2 ^ (q - 1) := by
  rw [← zpow_one_add₀ two_ne_zero]
  congr 1
  ring

/-- Just below a power of two, the next lower exponent is that of the last bit, and the mantissa is
rounded up to the power. -/
theorem roundDiv_below (hden : 0 < den) (h : RoundsTo (2 ^ 52) q (num / den)) (hq : -1074 < q)
    (hlt : (num / den : ℚ) < 2 ^ 52 * 2 ^ q) :
    roundDiv (num * 2 ^ (-(q - 1)).toNat) (den * 2 ^ (q - 1).toNat) .toEven = 2 ^ 53 := by
  have hunit : (0 : ℚ) < 2 ^ (q - 1) := by positivity
  have hlow := h.low
  rw [reach, if_pos ⟨rfl, hq⟩, two_zpow_pred q] at hlow
  rw [two_zpow_pred q] at hlt
  push_cast at hlow
  apply roundDiv_toEven (by positivity)
  · rw [scaled_eq _ _ two_pos, Nat.cast_two, le_div_iff₀ hunit]
    push_cast
    linarith
  · rw [scaled_eq _ _ two_pos, Nat.cast_two, div_le_iff₀ hunit]
    push_cast
    linarith
  · intro hodd
    norm_num at hodd

/-- Where the last bit of a quotient is that of the double, the mantissa needs no carry. -/
theorem roundPositive_within (hcanonical : Canonical m q) (hden : 0 < den)
    (h : RoundsTo m q (num / den)) (hlast : max (lastExponent num den) (-1074) = q) :
    roundPositive num den = assemble m q := by
  have hround := roundDiv_eq hden h
  have hne : m ≠ Nat.pow 2 53 := hcanonical.lt.ne
  rw [roundPositive, hlast]
  simp only [Nat.pow_eq] at hne ⊢
  rw [hround, if_neg hne]

/-- Just below a power of two, the mantissa is carried into the exponent. -/
theorem roundPositive_below (hnum : 0 < num) (hden : 0 < den)
    (h : RoundsTo (2 ^ 52) q (num / den)) (hq : -1074 < q)
    (hlt : (num / den : ℚ) < 2 ^ 52 * 2 ^ q) :
    roundPositive num den = assemble (2 ^ 52) q := by
  obtain ⟨hlastLow, hlastHigh⟩ := lastExponent_spec hnum hden
  have hunit : (0 : ℚ) < 2 ^ q := by positivity
  have hstep := two_zpow_pred q
  have hround := roundDiv_below hden h hq hlt
  have hle : lastExponent num den ≤ q - 1 := exponent_le hlastLow (by linarith)
  have hge : q - 1 ≤ lastExponent num den := by
    refine exponent_le (v := num / den) ?_ hlastHigh
    have hlow := h.low
    have hreach := reach_le (2 ^ 52) q
    push_cast at hlow
    nlinarith
  have hlast : max (lastExponent num den) (-1074) = q - 1 := by omega
  rw [roundPositive, hlast]
  simp only [Nat.pow_eq]
  rw [hround, if_pos rfl, sub_add_cancel]

/-- What is rounded to a full mantissa from below it is rounded to a power of two. -/
theorem RoundsTo.eq_two_pow (h : RoundsTo m q v) (hfull : 2 ^ 52 ≤ m)
    (hlt : v < 2 ^ 52 * 2 ^ q) : m = 2 ^ 52 := by
  have hunit : (0 : ℚ) < 2 ^ q := by positivity
  have hreach := reach_le m q
  have hlow := lt_of_mul_lt_mul_right (h.low.trans_lt hlt) hunit.le
  have hltCast : (m : ℚ) < 2 ^ 52 + 1 := by linarith
  have hltNat : m < 2 ^ 52 + 1 := by exact_mod_cast hltCast
  omega

/-- A positive quotient is rounded to the double in whose interval it lies. -/
theorem roundPositive_eq (hm : 0 < m) (hcanonical : Canonical m q) (hden : 0 < den)
    (h : RoundsTo m q (num / den)) : roundPositive num den = assemble m q := by
  have hvpos : (0 : ℚ) < num / den := h.pos hm
  have hnum : 0 < num := by
    rcases Nat.eq_zero_or_pos num with rfl | hpos
    · simp at hvpos
    · exact hpos
  obtain ⟨hlastLow, hlastHigh⟩ := lastExponent_spec hnum hden
  have hle : lastExponent num den ≤ q := exponent_le hlastLow (h.lt hcanonical.lt)
  rcases le_or_gt (2 ^ 52 * 2 ^ q) (num / den : ℚ) with hwide | hnarrow
  · have hge := exponent_le hwide hlastHigh
    have hleast := hcanonical.least
    exact roundPositive_within hcanonical hden h (by omega)
  · rcases hcanonical.least.eq_or_lt with rfl | hmore
    · exact roundPositive_within hcanonical hden h (by omega)
    · obtain rfl := h.eq_two_pow (hcanonical.full.resolve_right hmore.ne') hnarrow
      exact roundPositive_below hnum hden h hmore hnarrow

/-- A quotient is rounded to the double in whose interval it lies. -/
theorem roundRatio_eq {num : ℤ} (hm : 0 < m) (hcanonical : Canonical m q) (hden : 0 < den)
    (h : RoundsTo m q (num.natAbs / den)) (hnum : num ≠ 0) :
    roundRatio num den = ofParts (num < 0) m q := by
  rw [roundRatio, if_neg hnum, roundPositive_eq hm hcanonical hden h, ofParts]
  simp only [decide_eq_true_eq]

/-- A double is what its exact value is rounded to. -/
theorem roundRatio_value {x : Float} {b : Binary} (h : ofFloat? x = some b) (hb : b.mantissa ≠ 0)
    {num : ℤ} (hden : 0 < den) (hvalue : (num / den : ℚ) = b.value) : roundRatio num den = x := by
  have hunit : (0 : ℚ) < 2 ^ b.exponent := by positivity
  have hpos : (0 : ℚ) < den := by exact_mod_cast hden
  have hnum : (num : ℚ) = b.mantissa * 2 ^ b.exponent * den := (div_eq_iff hpos.ne').mp hvalue
  have hsign : num < 0 ↔ b.mantissa < 0 := by
    have hscale := mul_pos hunit hpos
    rw [← Int.cast_lt_zero (R := ℚ), ← Int.cast_lt_zero (R := ℚ), hnum, mul_assoc]
    exact ⟨fun h => neg_of_mul_neg_left h hscale.le, fun h => mul_neg_of_neg_of_pos h hscale⟩
  have habs : ((num.natAbs : ℚ) / den) = b.mantissa.natAbs * 2 ^ b.exponent := by
    rw [div_eq_iff hpos.ne', Nat.cast_natAbs, Nat.cast_natAbs, Int.cast_abs, Int.cast_abs, hnum,
      abs_mul, abs_mul, abs_of_pos hunit, abs_of_pos hpos]
  have hne : num ≠ 0 := by
    rintro rfl
    have hzero := hnum.symm
    simp [hunit.ne', hpos.ne', hb] at hzero
  rw [roundRatio_eq (Int.natAbs_pos.mpr hb) (canonical h) hden (habs ▸ roundsTo_self _ _) hne]
  simp only [hsign]
  exact (eq_ofParts_of_ne_zero h hb).symm

theorem value_eq_zero_iff {b : Binary} : b.value = 0 ↔ b.mantissa = 0 := by
  simp [value, zpow_ne_zero]

/-- Two doubles of one value that is not zero are the same. -/
theorem eq_of_value_eq {x y : Float} {b c : Binary} (hx : ofFloat? x = some b)
    (hy : ofFloat? y = some c) (hvalue : b.value = c.value) (hb : b.mantissa ≠ 0) : x = y := by
  have hc : c.mantissa ≠ 0 := by
    rwa [Ne, ← value_eq_zero_iff, ← hvalue, value_eq_zero_iff]
  have hxr := roundRatio_value hx hb b.ratio_den_pos b.value_eq_ratio.symm
  rw [← hxr]
  exact roundRatio_value hy hc b.ratio_den_pos (b.value_eq_ratio.symm.trans hvalue)

end Round

end Binary

/-- A double of a whole value is what the integer is rounded to. -/
theorem floatOfInt_eq {x : Float} {b : Binary} {n : ℤ} (h : Binary.ofFloat? x = some b)
    (hb : b.mantissa ≠ 0) (hvalue : b.value = n) : floatOfInt n = x := by
  refine Binary.roundRatio_value h hb one_pos ?_
  rw [hvalue, Nat.cast_one, div_one]

end Gridding
