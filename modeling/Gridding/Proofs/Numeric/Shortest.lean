import Gridding.Numeric.Decimal
import Gridding.Proofs.Numeric.Rounding

/-!
# Shortest digits

The digits that a double is written with are those of a decimal that is rounded to the double. Of
the multiples of a power of ten the two next to the double are tried, from one digit on. One of the
two is rounded to it at the seventeenth digit, if at none before.
-/

namespace Gridding.Decimal

open Binary

section LeadingExponent

variable {num den : ℕ}

/-- The binary logarithm of a number, in tenfold steps of which there are `a` in `b` twofold ones,
is not too large by more than one twofold step. -/
theorem ten_zpow_le {a b : ℕ} (hb : 0 < b) (hle : 10 ^ a ≤ 2 ^ b) (hge : 2 ^ b ≤ 2 * 10 ^ a) {L : ℤ}
    (hL : -(b : ℤ) ≤ L) : (10 : ℚ) ^ (L * a / b) ≤ 2 ^ (L + 1) := by
  have hleCast : (10 : ℚ) ^ a ≤ 2 ^ b := by exact_mod_cast hle
  have hgeCast : (2 : ℚ) ^ b ≤ 2 * 10 ^ a := by exact_mod_cast hge
  have hten : ((10 : ℚ) ^ a) ^ L ≤ 2 ^ b * (2 ^ b) ^ L := by
    rcases Int.le_total 0 L with hpos | hneg
    · obtain ⟨l, rfl⟩ := Int.eq_ofNat_of_zero_le hpos
      have hpow : ((10 : ℚ) ^ a) ^ l ≤ (2 ^ b) ^ l := by gcongr
      have hone : (1 : ℚ) ≤ 2 ^ b := one_le_pow₀ one_le_two
      simpa using hpow.trans (le_mul_of_one_le_left (by positivity) hone)
    · obtain ⟨l, rfl⟩ : ∃ l : ℕ, L = -l := ⟨(-L).toNat, by omega⟩
      have hpow : ((2 : ℚ) ^ b) ^ l ≤ 2 ^ b * (10 ^ a) ^ l := by
        calc ((2 : ℚ) ^ b) ^ l ≤ (2 * 10 ^ a) ^ l := by gcongr
          _ = 2 ^ l * (10 ^ a) ^ l := mul_pow ..
          _ ≤ 2 ^ b * (10 ^ a) ^ l := by
            gcongr
            · exact one_le_two
            · omega
      rw [zpow_neg, zpow_neg, zpow_natCast, zpow_natCast, ← div_eq_mul_inv,
        le_div_iff₀ (by positivity), inv_mul_le_iff₀ (by positivity), mul_comm]
      exact hpow
  have hstep : L * a / b * b ≤ L * a := Int.ediv_mul_le _ (by omega)
  rw [← pow_le_pow_iff_left₀ (by positivity) (by positivity) hb.ne']
  calc ((10 : ℚ) ^ (L * a / b)) ^ b = 10 ^ (L * a / b * b) := by rw [zpow_mul, zpow_natCast]
    _ ≤ 10 ^ (L * a) := zpow_le_zpow_right₀ (by norm_num) hstep
    _ = (10 ^ a) ^ L := by rw [mul_comm, zpow_mul, zpow_natCast]
    _ ≤ 2 ^ b * (2 ^ b) ^ L := hten
    _ = (2 ^ (L + 1)) ^ b := by
      rw [zpow_add_one₀ two_ne_zero, mul_pow, ← zpow_natCast, ← zpow_natCast, ← zpow_mul, ← zpow_mul,
        mul_comm, mul_comm (b : ℤ)]

/-- The leading exponent is not too large for a quotient that is not extremely small. -/
theorem leadingExponent_le (hnum : 0 < num) (hden : 0 < den)
    (hsize : -4096 ≤ (num.log2 : ℤ) - den.log2) :
    (10 : ℚ) ^ leadingExponent num den ≤ num / den := by
  have hreaches : ∀ k : ℤ, den * Nat.pow 10 k.toNat ≤ num * Nat.pow 10 (-k).toNat →
      (10 : ℚ) ^ k ≤ num / den :=
    fun k hk => by exact_mod_cast (zpow_le_div_iff hden (by norm_num) k).mp hk
  have hguess : (10 : ℚ) ^ (((num.log2 : ℤ) - den.log2) * 1233 / 4096) ≤
      2 ^ ((num.log2 : ℤ) - den.log2 + 1) :=
    ten_zpow_le (a := 1233) (b := 4096) (by norm_num) (by decide +kernel) (by decide +kernel) hsize
  have hlow := (log2_bounds hnum hden).1.le
  rw [leadingExponent]
  generalize ((num.log2 : ℤ) - den.log2) * 1233 / 4096 = guess at hguess ⊢
  generalize hfound : List.find? _ _ = found
  cases found with
  | some k => exact hreaches k (by simpa using List.find?_some hfound)
  | none =>
    -- three tenfold steps below the guess are more than two twofold ones
    rw [Option.getD_none]
    calc (10 : ℚ) ^ (guess - 3) = 10 ^ guess / 1000 := by
          rw [zpow_sub₀ (by norm_num)]
          norm_num
      _ ≤ 2 ^ ((num.log2 : ℤ) - den.log2 + 1) / 4 := by
        have hpos : (0 : ℚ) < 10 ^ guess := by positivity
        linarith
      _ = 2 ^ ((num.log2 : ℤ) - den.log2 - 1) := by
        rw [zpow_add_one₀ two_ne_zero, zpow_sub_one₀ two_ne_zero]
        ring
      _ ≤ num / den := hlow

end LeadingExponent

section ReadsBack

variable {b : Binary} {m c : ℕ} {q e : ℤ} {v : ℚ}

theorem le_iff_of_scaled {i j : ℕ} {x y s : ℚ} (hs : 0 < s) (hi : (i : ℚ) = x * s)
    (hj : (j : ℚ) = y * s) : (i ≤ j ↔ x ≤ y) ∧ (i < j ↔ x < y) := by
  rw [← mul_le_mul_iff_left₀ hs, ← mul_lt_mul_iff_left₀ hs, ← hi, ← hj, Nat.cast_le, Nat.cast_lt]
  exact ⟨Iff.rfl, Iff.rfl⟩

/-- The integers that are compared, in one scale. -/
theorem exists_scale (c : ℕ) (e q : ℤ) : ∃ s : ℚ, 0 < s ∧
    ((Nat.pow 2 (q - 2).toNat * Nat.pow 10 (-e).toNat : ℕ) : ℚ) = 2 ^ q / 4 * s ∧
    ((c * Nat.pow 10 e.toNat * Nat.pow 2 (-(q - 2)).toNat : ℕ) : ℚ) = c * 10 ^ e * s := by
  have hquarter : (2 : ℚ) ^ q / 4 = 2 ^ (q - 2) := by
    rw [zpow_sub₀ two_ne_zero]
    norm_num
  simp only [Nat.pow_eq]
  refine ⟨(2 ^ (q - 2).toNat * 10 ^ (-e).toNat : ℕ) / 2 ^ (q - 2), by positivity, ?_, ?_⟩
  · rw [hquarter]
    field_simp
  · rw [zpow_eq_div 2, zpow_eq_div 10]
    push_cast
    field_simp

/-- Reading back is being rounded to the double. -/
theorem readsBack_iff (hb : b.mantissa ≠ 0) :
    readsBack doubleFormat b c e ↔ RoundsTo b.mantissa.natAbs b.exponent (c * 10 ^ e) := by
  have hm : 1 ≤ b.mantissa.natAbs := Int.natAbs_pos.mpr hb
  obtain ⟨s, hs, hunit, hvalue⟩ := exists_scale c e b.exponent
  rw [readsBack]
  generalize b.mantissa.natAbs = m at hm ⊢
  generalize b.exponent = q at hunit hvalue ⊢
  generalize Nat.pow 2 (q - 2).toNat * Nat.pow 10 (-e).toNat = unit at hunit ⊢
  generalize hlow : (if (decide (m = Nat.pow 2 (doubleFormat.bits - 1)) &&
    decide (q > doubleFormat.least)) = true then 4 * m - 1 else 4 * m - 2) = low
  have hnarrow : (decide (m = Nat.pow 2 (doubleFormat.bits - 1)) &&
      decide (q > doubleFormat.least)) = true ↔ m = 2 ^ 52 ∧ -1074 < q := by
    rw [Bool.and_eq_true, decide_eq_true_iff, decide_eq_true_iff]
    exact Iff.rfl
  have hlowCast : (low : ℚ) = 4 * (m - reach m q) := by
    rw [← hlow, reach]
    simp only [hnarrow]
    split_ifs
    · push_cast [show 1 ≤ 4 * m by omega]
      ring
    · push_cast [show 2 ≤ 4 * m by omega]
      ring
  have hlowScaled : ((low * unit : ℕ) : ℚ) = (m - reach m q) * 2 ^ q * s := by
    rw [Nat.cast_mul, hlowCast, hunit]
    ring
  have hhighScaled : (((4 * m + 2) * unit : ℕ) : ℚ) = (m + 1 / 2) * 2 ^ q * s := by
    push_cast
    rw [hunit]
    ring
  obtain ⟨hlowLe, hlowLt⟩ := le_iff_of_scaled hs hlowScaled hvalue
  obtain ⟨hhighLe, hhighLt⟩ := le_iff_of_scaled hs hvalue hhighScaled
  rcases Nat.mod_two_eq_zero_or_one m with heven | hodd
  · rw [if_pos heven, roundsTo_iff_of_even heven, Bool.and_eq_true, decide_eq_true_eq,
      decide_eq_true_eq, hlowLe, hhighLe]
  · rw [if_neg (by omega), roundsTo_iff_of_odd hodd, Bool.and_eq_true, decide_eq_true_eq,
      decide_eq_true_eq, hlowLt, hhighLt]

/-- One of the two multiples of a unit next to a double is rounded to it, if the unit is small. -/
theorem roundsTo_or_succ {u : ℚ} (hcanonical : Canonical m q) (hsmall : u * 10 ^ 16 ≤ m * 2 ^ q)
    (hlow : c * u ≤ m * 2 ^ q) (hhigh : m * 2 ^ q < (c + 1) * u) :
    RoundsTo m q (c * u) ∨ RoundsTo m q ((c + 1) * u) := by
  have hunit : (0 : ℚ) < 2 ^ q := by positivity
  have hlt : (m : ℚ) + 1 ≤ 2 ^ 53 := by exact_mod_cast hcanonical.lt
  have hreach := reach_pos m q
  by_cases hnear : (m * 2 ^ q - c * u : ℚ) ≤ u / 2 ∧ ¬ (m = 2 ^ 52 ∧ -1074 < q)
  · left
    have hhalf : reach m q = 1 / 2 := if_neg hnear.2
    refine .of_lt ?_ ?_
    · rw [hhalf]
      nlinarith
    · nlinarith
  · right
    refine .of_lt (by nlinarith) ?_
    rcases not_and_or.mp hnear with hfar | hnarrow
    · nlinarith
    · obtain ⟨rfl, -⟩ := not_not.mp hnarrow
      push_cast at *
      nlinarith

end ReadsBack

section Digits

variable {b : Binary} {c : ℕ} {e : ℤ}

/-- The multiples of a power of ten next to a number. -/
theorem floor_bounds (b : Binary) (e : ℤ) (hc : b.ratio.1.natAbs * Nat.pow 10 (-e).toNat /
    (b.ratio.2 * Nat.pow 10 e.toNat) = c) :
    (c : ℚ) * 10 ^ e ≤ b.mantissa.natAbs * 2 ^ b.exponent ∧
      (b.mantissa.natAbs * 2 ^ b.exponent : ℚ) < (c + 1) * 10 ^ e := by
  have hunit : (0 : ℚ) < 10 ^ e := by positivity
  have hscaled := scaled_eq b.ratio.1.natAbs b.ratio.2 (a := 10) (by norm_num) e
  rw [natAbs_ratio, Nat.cast_ofNat] at hscaled
  rw [← le_div_iff₀ hunit, ← div_lt_iff₀ hunit, ← hscaled, ← hc, ← Nat.floor_div_eq_div (K := ℚ)]
  exact ⟨Nat.floor_le (by positivity), Nat.lt_floor_add_one _⟩

theorem roundDiv_eq_or (num den : ℕ) (tie : Tie) :
    roundDiv num den tie = num / den ∨ roundDiv num den tie = num / den + 1 := by
  cases tie <;> simp only [roundDiv] <;> split_ifs <;> simp

theorem roundsTo_of_digitsAt? (hb : b.mantissa ≠ 0) (h : digitsAt? doubleFormat b e = some c) :
    RoundsTo b.mantissa.natAbs b.exponent (c * 10 ^ e) := by
  rw [← readsBack_iff hb]
  simp only [digitsAt?, Bool.and_eq_true] at h
  split_ifs at h with hboth hlow hhigh
  · obtain rfl := Option.some.inj h
    rcases roundDiv_eq_or (b.ratio.1.natAbs * Nat.pow 10 (-e).toNat)
      (b.ratio.2 * Nat.pow 10 e.toNat) .toEven with hround | hround <;> rw [hround]
    · exact hboth.1
    · exact hboth.2
  · rwa [← Option.some.inj h]
  · rwa [← Option.some.inj h]

theorem digitsAt?_ne_none (hcanonical : Canonical b.mantissa.natAbs b.exponent)
    (hb : b.mantissa ≠ 0) (hsmall : (10 : ℚ) ^ e * 10 ^ 16 ≤ b.mantissa.natAbs * 2 ^ b.exponent) :
    digitsAt? doubleFormat b e ≠ none := by
  intro h
  obtain ⟨hle, hlt⟩ := floor_bounds b e rfl
  have hreads := roundsTo_or_succ hcanonical hsmall hle hlt
  have hcast : ∀ c : ℕ, ((c : ℚ) + 1) = (c + 1 : ℕ) := fun c => by push_cast; rfl
  rw [hcast, ← readsBack_iff hb, ← readsBack_iff hb] at hreads
  simp only [digitsAt?, Bool.and_eq_true] at h
  split_ifs at h with hboth hlow hhigh
  exact hreads.elim hlow hhigh

theorem leadingExponent_ratio_le (hcanonical : Canonical b.mantissa.natAbs b.exponent)
    (hb : b.mantissa ≠ 0) : (10 : ℚ) ^ leadingExponent b.ratio.1.natAbs b.ratio.2 ≤
      b.mantissa.natAbs * 2 ^ b.exponent := by
  have hleast := hcanonical.least
  have hnum : 0 < b.ratio.1.natAbs := by simp [ratio, Int.natAbs_pos, hb]
  have hden : b.ratio.2.log2 = (-b.exponent).toNat := Nat.log2_two_pow
  rw [← natAbs_ratio]
  exact leadingExponent_le hnum b.ratio_den_pos (by omega)

/-- The digits that a double is written with are those of a decimal that is rounded to it. -/
theorem shortestDigits_spec (hcanonical : Canonical b.mantissa.natAbs b.exponent)
    (hb : b.mantissa ≠ 0) : ∃ c e, shortestDigits doubleFormat b =
      (c, ((Nat.toDigits 10 c).length : ℤ) - 1 + e) ∧
      RoundsTo b.mantissa.natAbs b.exponent (c * 10 ^ e) := by
  simp only [shortestDigits]
  generalize hfound : List.findSome? _ (List.range 17) = found
  cases found with
  | some p =>
    obtain ⟨i, -, hhit⟩ := List.exists_of_findSome?_eq_some hfound
    obtain ⟨c, hc, rfl⟩ := Option.map_eq_some_iff.mp hhit
    exact ⟨c, _, rfl, roundsTo_of_digitsAt? hb hc⟩
  | none =>
    have hlast := List.findSome?_eq_none_iff.mp hfound 16 (by decide)
    refine absurd (Option.map_eq_none_iff.mp hlast) (digitsAt?_ne_none hcanonical hb ?_)
    rw [← zpow_natCast, ← zpow_add₀ (by norm_num)]
    convert leadingExponent_ratio_le hcanonical hb using 2
    push_cast
    ring

end Digits

end Gridding.Decimal
