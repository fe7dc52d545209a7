import Gridding.Proofs.Numeric.Rounding
import Gridding.Proofs.Numeric.Signs

/-!
# Numbers beyond the doubles

Every positive quotient is rounded to a mantissa and an exponent in whose interval it lies, and the
exponents of doubles may be used up. That is so from half way between the greatest double and the
next power of two on: such a quotient is rounded to an infinity, and a smaller one to the finite
double nearest to it.
-/

namespace Gridding

open Float.Model (Format UnpackedFloat)
open Float.Model.UnpackedFloat

/-! ## Infinite doubles -/

section Infinite

variable {x : Float} {b : Binary}

theorem isInf_eq_false (h : Binary.ofFloat? x = some b) : x.isInf = false := by
  have hfinite := isFinite_unpack h
  change x.toModel.unpack.isInf = false
  generalize x.toModel.unpack = u at hfinite
  cases hfinite <;> rfl

/-- A double without a value is infinite unless it is no number. -/
theorem isInf_of_ofFloat?_eq_none (h : Binary.ofFloat? x = none) : x.isInf = !x.isNaN := by
  have hall : @unpackExponent Format.binary64 x.toBits.toBitVec = -1#_ := by
    apply BitVec.eq_of_toNat_eq
    rw [toNat_unpackExponent, ← Binary.toNat_exponentBits]
    simp only [Binary.ofFloat?] at h
    split at h
    case isTrue hexponent => exact hexponent
    case isFalse => cases h
  change (UnpackedFloat.unpack Format.binary64 x.toBits.toBitVec).isInf =
    !(UnpackedFloat.unpack Format.binary64 x.toBits.toBitVec).isNaN
  simp only [UnpackedFloat.unpack, if_pos hall]
  split <;> rfl

end Infinite

namespace Binary

/-- From here on numbers are nearer to the power of two beyond the doubles than to a double. -/
def limit : ℚ := 2 ^ 1024 - 2 ^ 970

/-- The limit in units of the last bit of the greatest double. -/
theorem limit_eq : limit = (2 ^ 53 - 1 / 2) * 2 ^ (971 : ℤ) := by
  have hnext : (2 : ℚ) ^ 1024 = 2 ^ 54 * 2 ^ 970 := by rw [← pow_add]
  have hlast : (2 : ℚ) ^ (971 : ℤ) = 2 * 2 ^ 970 := by
    rw [show (971 : ℤ) = ((1 + 970 : ℕ) : ℤ) from rfl, zpow_natCast, pow_add, pow_one]
  rw [limit, hnext, hlast]
  generalize (2 : ℚ) ^ 970 = u
  ring

section Bits

variable {m : ℕ} {q : ℤ} {n : UInt64}

theorem isInf_ofBits_of_exponent (h : n.toNat / 2 ^ 52 % 2 ^ 11 ≠ 2 ^ 11 - 1) :
    (Float.ofBits n).isInf = false := by
  change UnpackedFloat.isInf (UnpackedFloat.unpack Format.binary64
    (UnpackedFloat.pack Format.binary64 (UnpackedFloat.unpack Format.binary64 n.toBitVec))) = false
  have hfinite : @unpackExponent Format.binary64 n.toBitVec ≠ -1#_ := by
    intro hall
    have hnat := congrArg BitVec.toNat hall
    rw [unpackExponent_def, BitVec.extractLsb'_toNat, Nat.shiftRight_eq_div_pow] at hnat
    exact h hnat
  rw [unpack_pack_unpack, UnpackedFloat.unpack]
  simp only [if_neg hfinite]
  split_ifs <;> rfl

theorem isInf_ofParts (h : Canonical m q) (negative : Bool) :
    (ofParts negative m q).isInf = false := by
  have hlt := toNat_assemble_lt h
  have hexponent : (assemble m q).toNat / 2 ^ 52 < 2 ^ 11 - 1 := by
    have hm := h.lt
    have hmost := h.most
    rcases Nat.lt_or_ge m (2 ^ 52) with hsmall | hfull
    · rw [toNat_assemble_of_lt hsmall]
      omega
    · rw [toNat_assemble_of_le h hfull]
      omega
  rw [ofParts]
  apply isInf_ofBits_of_exponent
  split
  · rw [toNat_or_sign hlt]
    omega
  · omega

/-- Beyond the exponents of doubles there are the infinities. -/
theorem isInf_ofParts_of_le (hm : 2 ^ 52 ≤ m) (hq : 972 ≤ q) (negative : Bool) :
    (ofParts negative m q).isInf = true := by
  have hbits : assemble m q = 0x7FF0000000000000 := by
    rw [assemble, if_neg (show ¬ m < Nat.pow 2 52 from not_lt.mpr hm)]
    simp only
    rw [if_pos (by omega)]
  rw [ofParts, hbits]
  cases negative <;> decide +kernel

end Bits

section Rounded

variable {num den m : ℕ} {q : ℤ} {v : ℚ}

/-- The integer that a quotient is rounded to is nearest to it, and even if another one is as
near. -/
theorem roundDiv_near (num : ℕ) (hden : 0 < den) (h : roundDiv num den .toEven = m) :
    (m : ℚ) - 1 / 2 ≤ num / den ∧ (num : ℚ) / den ≤ m + 1 / 2 ∧
      (m % 2 = 1 → (m : ℚ) - 1 / 2 < num / den ∧ (num : ℚ) / den < m + 1 / 2) := by
  have hpos : (0 : ℚ) < den := by exact_mod_cast hden
  have hnear : 2 * (m * den) ≤ 2 * num + den ∧ 2 * num ≤ 2 * (m * den) + den ∧
      (m % 2 = 1 → 2 * (m * den) < 2 * num + den ∧ 2 * num < 2 * (m * den) + den) := by
    have hsplit := Nat.div_add_mod num den
    have hrest := Nat.mod_lt num hden
    have hcomm := Nat.mul_comm den (num / den)
    have hexpand : (num / den + 1) * den = den * (num / den) + den := by ring
    rw [← h, roundDiv]
    split_ifs <;> omega
  have hcast : ∀ a b : ℕ, a ≤ b ↔ (a : ℚ) ≤ b := fun _ _ => Nat.cast_le.symm
  have hcastLt : ∀ a b : ℕ, a < b ↔ (a : ℚ) < b := fun _ _ => Nat.cast_lt.symm
  rw [hcast, hcast, hcastLt, hcastLt] at hnear
  push_cast at hnear
  rw [le_div_iff₀ hpos, div_le_iff₀ hpos, lt_div_iff₀ hpos, div_lt_iff₀ hpos]
  obtain ⟨hlow, hhigh, hodd⟩ := hnear
  exact ⟨by linarith, by linarith, fun hm => ⟨by linarith [(hodd hm).1], by linarith [(hodd hm).2]⟩⟩

/-- A quotient lies in the interval of the mantissa that it is rounded to, if it is as wide as the
mantissa. -/
theorem roundsTo_roundDiv (hden : 0 < den)
    (h : roundDiv (num * 2 ^ (-q).toNat) (den * 2 ^ q.toNat) .toEven = m)
    (hwide : -1074 < q → 2 ^ 52 * 2 ^ q ≤ (num / den : ℚ)) : RoundsTo m q (num / den) := by
  have hunit : (0 : ℚ) < 2 ^ q := by positivity
  obtain ⟨hlow, hhigh, hodd⟩ := roundDiv_near _ (by positivity) h
  rw [scaled_eq _ _ two_pos, Nat.cast_two] at hlow hhigh hodd
  rw [le_div_iff₀ hunit] at hlow
  rw [div_le_iff₀ hunit] at hhigh
  rw [lt_div_iff₀ hunit, div_lt_iff₀ hunit] at hodd
  by_cases hpower : m = 2 ^ 52 ∧ -1074 < q
  · obtain ⟨rfl, hq⟩ := hpower
    rw [roundsTo_iff_of_even (by norm_num), reach, if_pos ⟨rfl, hq⟩]
    have hle := hwide hq
    push_cast at hhigh ⊢
    exact ⟨by nlinarith, hhigh⟩
  · have hhalf : reach m q = 1 / 2 := if_neg hpower
    exact ⟨by rwa [hhalf], hhigh, by rwa [hhalf]⟩

/-- Just below a power of two, the interval of the power reaches half a unit of the next lower
exponent. -/
theorem roundsTo_two_pow (hlow : (2 ^ 53 - 1 / 2) * 2 ^ q ≤ v) (hhigh : v < 2 ^ 53 * 2 ^ q)
    (hq : -1074 ≤ q) : RoundsTo (2 ^ 52) (q + 1) v := by
  have hunit : (0 : ℚ) < 2 ^ q := by positivity
  rw [roundsTo_iff_of_even (by norm_num), reach, if_pos ⟨rfl, by omega⟩, zpow_add_one₀ two_ne_zero]
  push_cast
  exact ⟨by linarith, by linarith⟩

/-- A positive quotient is rounded to a mantissa and an exponent in whose interval it lies. -/
theorem exists_roundsTo (hnum : 0 < num) (hden : 0 < den) : ∃ m q,
    roundPositive num den = assemble m q ∧ RoundsTo m q (num / den) ∧ m < 2 ^ 53 ∧ -1074 ≤ q ∧
      (2 ^ 52 ≤ m ∨ q = -1074) := by
  obtain ⟨hlastLow, hlastHigh⟩ := lastExponent_spec hnum hden
  rw [roundPositive]
  generalize hq : max (lastExponent num den) (-1074) = q
  have hunit : (0 : ℚ) < 2 ^ q := by positivity
  have hwide : -1074 < q → 2 ^ 52 * 2 ^ q ≤ (num / den : ℚ) := by
    intro hmore
    rwa [show q = lastExponent num den by omega]
  have hnarrow : (num / den : ℚ) < 2 ^ 53 * 2 ^ q := by
    refine hlastHigh.trans_le ?_
    gcongr
    · norm_num
    · omega
  simp only [Nat.pow_eq]
  generalize hm : roundDiv (num * 2 ^ (-q).toNat) (den * 2 ^ q.toNat) .toEven = m
  have hnear := roundDiv_near _ (by positivity) hm
  rw [scaled_eq _ _ two_pos, Nat.cast_two, div_le_iff₀ hunit, le_div_iff₀ hunit] at hnear
  split_ifs with hcarry
  · subst hcarry
    have hlow := hnear.1
    push_cast at hlow
    exact ⟨_, _, rfl, roundsTo_two_pow hlow hnarrow (by omega), by norm_num, by omega, .inl le_rfl⟩
  · have hlt : (m : ℚ) - 1 / 2 < 2 ^ 53 :=
      lt_of_mul_lt_mul_right (hnear.1.trans_lt hnarrow) hunit.le
    have hltCast : (m : ℚ) < 2 ^ 53 + 1 := by linarith
    have hltNat : m < 2 ^ 53 + 1 := by exact_mod_cast hltCast
    refine ⟨_, _, rfl, roundsTo_roundDiv hden hm hwide, by omega, by omega, ?_⟩
    rcases (show -1074 ≤ q by omega).lt_or_eq with hmore | hleast
    · left
      have hge : (2 : ℚ) ^ 52 ≤ m + 1 / 2 :=
        le_of_mul_le_mul_right ((hwide hmore).trans hnear.2.1) hunit
      have hgtCast : (2 : ℚ) ^ 52 < m + 1 := by linarith
      have hgtNat : 2 ^ 52 < m + 1 := by exact_mod_cast hgtCast
      omega
    · exact .inr hleast.symm

theorem RoundsTo.lt_limit (h : RoundsTo m q v) (hm : m < 2 ^ 53) (hq : q ≤ 971) : v < limit := by
  have hunit : (0 : ℚ) < 2 ^ q := by positivity
  have hle : (2 : ℚ) ^ q ≤ 2 ^ (971 : ℤ) := zpow_le_zpow_right₀ one_le_two hq
  have hlimit : ((2 : ℚ) ^ 53 - 1 / 2) * 2 ^ q ≤ limit := by
    rw [limit_eq]
    exact mul_le_mul_of_nonneg_left hle (by norm_num)
  refine lt_of_lt_of_le ?_ hlimit
  -- The greatest mantissa is odd, so that the end of its interval is not rounded to it.
  rcases Nat.mod_two_eq_zero_or_one m with heven | hodd
  · have hstep : (m : ℚ) + 2 ≤ 2 ^ 53 := by exact_mod_cast (show m + 2 ≤ 2 ^ 53 by omega)
    exact h.high.trans_lt (by nlinarith)
  · have hstep : (m : ℚ) + 1 ≤ 2 ^ 53 := by exact_mod_cast (show m + 1 ≤ 2 ^ 53 by omega)
    exact (h.odd hodd).2.trans_le (by nlinarith)

theorem RoundsTo.limit_le (h : RoundsTo m q v) (hm : 2 ^ 52 ≤ m) (hq : 972 ≤ q) : limit ≤ v := by
  have hle : (2 : ℚ) * 2 ^ (971 : ℤ) ≤ 2 ^ q := by
    rw [← zpow_one_add₀ two_ne_zero]
    exact zpow_le_zpow_right₀ one_le_two (by omega)
  have hunit : (0 : ℚ) ≤ 2 * 2 ^ (971 : ℤ) := by positivity
  have hreach : (2 : ℚ) ^ 52 - 1 / 4 ≤ m - reach m q := by
    rcases hm.eq_or_lt with rfl | hmore
    · rw [reach, if_pos ⟨rfl, by omega⟩]
      norm_num
    · have hstep : (2 : ℚ) ^ 52 + 1 ≤ m := by exact_mod_cast hmore
      linarith [reach_le m q]
  calc limit = (2 ^ 52 - 1 / 4) * (2 * 2 ^ (971 : ℤ)) := by rw [limit_eq]; ring
    _ ≤ (m - reach m q) * 2 ^ q := mul_le_mul hreach hle hunit (le_trans (by norm_num) hreach)
    _ ≤ v := h.low

variable {num : ℤ}

theorem roundRatio_eq_ofParts (hnum : num ≠ 0) (h : roundPositive num.natAbs den = assemble m q) :
    roundRatio num den = ofParts (num < 0) m q := by
  rw [roundRatio, if_neg hnum, h, ofParts]
  simp only [decide_eq_true_eq]

/-- Below the limit a quotient is rounded to the finite double in whose interval it lies. -/
theorem roundRatio_of_lt (hnum : num ≠ 0) (hden : 0 < den) (h : (num.natAbs / den : ℚ) < limit) :
    ∃ m q, Canonical m q ∧ RoundsTo m q (num.natAbs / den) ∧
      roundRatio num den = ofParts (num < 0) m q := by
  obtain ⟨m, q, heq, hrounds, hlt, hleast, hfull⟩ :=
    exists_roundsTo (Int.natAbs_pos.mpr hnum) hden
  have hmost : q ≤ 971 := by
    by_contra! hmore
    exact absurd h (not_lt.mpr (hrounds.limit_le (hfull.resolve_right (by omega)) (by omega)))
  exact ⟨m, q, ⟨hlt, hleast, hmost, hfull⟩, hrounds, roundRatio_eq_ofParts hnum heq⟩

/-- The quotients that are rounded to an infinity. -/
theorem isInf_roundRatio_iff (num : ℤ) (hden : 0 < den) :
    (roundRatio num den).isInf ↔ limit ≤ (num.natAbs / den : ℚ) := by
  rcases eq_or_ne num 0 with rfl | hnum
  · have hpos : (0 : ℚ) < limit := by
      rw [limit_eq]
      norm_num
    simp only [Int.natAbs_zero, Nat.cast_zero, zero_div, not_le.mpr hpos, iff_false]
    rw [roundRatio, if_pos rfl]
    decide +kernel
  constructor
  · intro hinf
    by_contra! hlt
    obtain ⟨m, q, hcanonical, -, heq⟩ := roundRatio_of_lt hnum hden hlt
    rw [heq, isInf_ofParts hcanonical] at hinf
    cases hinf
  · intro hle
    obtain ⟨m, q, heq, hrounds, hlt, hleast, hfull⟩ :=
      exists_roundsTo (Int.natAbs_pos.mpr hnum) hden
    have hmore : 972 ≤ q := by
      by_contra! hmost
      exact absurd hle (not_le.mpr (hrounds.lt_limit hlt (by omega)))
    rw [roundRatio_eq_ofParts hnum heq]
    exact isInf_ofParts_of_le (hfull.resolve_right (by omega)) hmore _

end Rounded

end Binary

section Integers

variable {n : ℤ}

/-- The integers that are rounded to an infinity. -/
theorem isInf_floatOfInt_iff (n : ℤ) : (floatOfInt n).isInf ↔ Binary.limit ≤ n.natAbs := by
  have h := Binary.isInf_roundRatio_iff n one_pos
  rwa [Nat.cast_one, div_one] at h

theorem floatOfInt_of_lt (hn : n ≠ 0) (h : n.natAbs < Binary.limit) : ∃ m q,
    Binary.Canonical m q ∧ Binary.RoundsTo m q n.natAbs ∧
      floatOfInt n = Binary.ofParts (n < 0) m q := by
  have hround := Binary.roundRatio_of_lt hn one_pos (by rwa [Nat.cast_one, div_one])
  rwa [Nat.cast_one, div_one] at hround

end Integers

end Gridding
