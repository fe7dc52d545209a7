import Gridding.Numeric.IntegerPart
import Mathlib

/-!
# Finite doubles

A finite double is a sign, a mantissa of at most 53 bits and an exponent, and stands for a rational
number. The mantissa has all its bits unless the exponent is the least one, so that there is one
double for each sign, mantissa and exponent.
-/

namespace Gridding

namespace Binary

/-- The number that is meant. -/
def value (b : Binary) : ℚ := b.mantissa * 2 ^ b.exponent

/-- The mantissas and exponents of doubles. -/
structure Canonical (m : ℕ) (q : ℤ) : Prop where
  lt : m < 2 ^ 53
  least : -1074 ≤ q
  most : q ≤ 971
  full : 2 ^ 52 ≤ m ∨ q = -1074

/-- The double of a sign, a mantissa and an exponent. -/
def ofParts (negative : Bool) (m : ℕ) (q : ℤ) : Float :=
  Float.ofBits (if negative then assemble m q ||| 0x8000000000000000 else assemble m q)

variable {x : Float} {b : Binary} {m : ℕ} {q n : ℤ}

theorem value_eq_ratio (b : Binary) : b.value = b.ratio.1 / b.ratio.2 := by
  obtain ⟨m, q⟩ := b
  rcases Int.le_total 0 q with hq | hq
  · obtain ⟨k, rfl⟩ := Int.eq_ofNat_of_zero_le hq
    simp [value, ratio]
  · obtain ⟨k, rfl⟩ : ∃ k : ℕ, q = -k := ⟨(-q).toNat, by omega⟩
    simp [value, ratio, div_eq_mul_inv]

theorem natAbs_ratio (b : Binary) :
    (b.ratio.1.natAbs : ℚ) / b.ratio.2 = b.mantissa.natAbs * 2 ^ b.exponent := by
  have hunit : (0 : ℚ) < 2 ^ b.exponent := by positivity
  have habs := congrArg abs b.value_eq_ratio
  rw [value, abs_mul, abs_div, abs_of_pos hunit, Nat.abs_cast] at habs
  rw [Nat.cast_natAbs, Nat.cast_natAbs, Int.cast_abs, Int.cast_abs, habs]

theorem ratio_den_pos (b : Binary) : 0 < b.ratio.2 := Nat.two_pow_pos _

section Whole

theorem ratio_eq_of_value (h : b.value = n) : b.ratio.1 = n * b.ratio.2 := by
  have hpos : (0 : ℚ) < b.ratio.2 := by exact_mod_cast b.ratio_den_pos
  rw [value_eq_ratio, div_eq_iff hpos.ne'] at h
  exact_mod_cast h

theorem isWhole_iff : b.isWhole ↔ ∃ n : ℤ, b.value = n := by
  have hpos : (0 : ℚ) < b.ratio.2 := by exact_mod_cast b.ratio_den_pos
  simp only [isWhole, decide_eq_true_eq]
  constructor
  · intro h
    obtain ⟨n, hn⟩ := Int.dvd_of_emod_eq_zero h
    refine ⟨n, ?_⟩
    rw [value_eq_ratio, hn, div_eq_iff hpos.ne']
    push_cast
    ring
  · rintro ⟨n, hn⟩
    rw [ratio_eq_of_value hn]
    exact Int.mul_emod_left _ _

theorem truncate_eq (h : b.value = n) : b.truncate = n := by
  have hpos := b.ratio_den_pos
  simp only [truncate, ratio_eq_of_value h]
  exact Int.mul_tdiv_cancel _ (by omega)

end Whole

section Bits

theorem toNat_exponentBits (n : UInt64) :
    ((n >>> 52) &&& 0x7FF).toNat = n.toNat / 2 ^ 52 % 2 ^ 11 := by
  rw [UInt64.toNat_and, UInt64.toNat_shiftRight, Nat.shiftRight_eq_div_pow]
  exact Nat.and_two_pow_sub_one_eq_mod _ 11

theorem toNat_mantissaBits (n : UInt64) : (n &&& 0xFFFFFFFFFFFFF).toNat = n.toNat % 2 ^ 52 := by
  rw [UInt64.toNat_and]
  exact Nat.and_two_pow_sub_one_eq_mod _ 52

theorem isNegative_iff : isNegative x ↔ 2 ^ 63 ≤ x.toBits.toNat := by
  have hlt := x.toBits.toNat_lt
  rw [isNegative, beq_iff_eq, ← UInt64.toNat_inj, UInt64.toNat_shiftRight, Nat.shiftRight_eq_div_pow]
  change x.toBits.toNat / 2 ^ 63 = 1 ↔ _
  omega

theorem toNat_toUInt64 {n : ℕ} (h : n < 2 ^ 64) : n.toUInt64.toNat = n := Nat.mod_eq_of_lt h

theorem toNat_assemble_of_lt (h : m < 2 ^ 52) : (assemble m q).toNat = m := by
  rw [assemble, if_pos (show m < Nat.pow 2 52 from h)]
  exact toNat_toUInt64 (h.trans (by norm_num))

theorem toNat_assemble_of_le (h : Canonical m q) (hm : 2 ^ 52 ≤ m) :
    (assemble m q).toNat = 2 ^ 52 * (q + 1075).toNat + (m - 2 ^ 52) := by
  have hlt := h.lt
  have hleast := h.least
  have hmost := h.most
  have hlow : m - 2 ^ 52 < 2 ^ 52 := by omega
  have hlowNat : (m - 2 ^ 52).toUInt64.toNat = m - 2 ^ 52 := toNat_toUInt64 (by omega)
  have hexponent : (q + 1075).toNat < 2 ^ 11 := by omega
  have hexponentNat : (q + 1075).toNat.toUInt64.toNat = (q + 1075).toNat :=
    toNat_toUInt64 (by omega)
  have hshift : ((q + 1075).toNat.toUInt64 <<< 52).toNat = 2 ^ 52 * (q + 1075).toNat := by
    rw [UInt64.toNat_shiftLeft, hexponentNat, Nat.shiftLeft_eq,
      show (52 : UInt64).toNat % 64 = 52 from rfl]
    omega
  rw [assemble, if_neg (show ¬ m < Nat.pow 2 52 from not_lt.mpr hm)]
  simp only
  rw [if_neg (by omega), UInt64.toNat_or, hshift, Nat.two_pow_add_eq_or_of_lt hlow,
    show Nat.pow 2 52 = 2 ^ 52 from rfl, hlowNat]

theorem toNat_assemble_lt (h : Canonical m q) : (assemble m q).toNat < 2 ^ 63 := by
  have hlt := h.lt
  have hmost := h.most
  rcases Nat.lt_or_ge m (2 ^ 52) with hm | hm
  · rw [toNat_assemble_of_lt hm]
    omega
  · rw [toNat_assemble_of_le h hm]
    omega

theorem toNat_or_sign {n : UInt64} (h : n.toNat < 2 ^ 63) :
    (n ||| 0x8000000000000000).toNat = n.toNat + 2 ^ 63 := by
  rw [UInt64.toNat_or, Nat.or_comm]
  have hor := Nat.two_pow_add_eq_or_of_lt h 1
  rw [mul_one] at hor
  exact hor.symm.trans (Nat.add_comm _ _)

theorem eq_ofParts (h : Canonical m q) (hbits : x.toBits.toNat =
    (if isNegative x then 2 ^ 63 else 0) + (assemble m q).toNat) :
    x = ofParts (isNegative x) m q := by
  have hassembled := toNat_assemble_lt h
  have hbits' : x.toBits = if isNegative x then assemble m q ||| 0x8000000000000000 else
      assemble m q := by
    apply UInt64.toNat_inj.mp
    rw [hbits]
    split
    · rw [toNat_or_sign hassembled, Nat.add_comm]
    · rw [Nat.zero_add]
  rw [ofParts, ← hbits', Float.ofBits_toBits]

/-- A finite double is that of its sign, mantissa and exponent. -/
theorem exists_parts (h : ofFloat? x = some b) : ∃ m q, Canonical m q ∧
    b = ⟨if isNegative x then -(m : ℤ) else m, q⟩ ∧ x = ofParts (isNegative x) m q := by
  have hlt := x.toBits.toNat_lt
  have hsign : (if isNegative x then 2 ^ 63 else 0) = x.toBits.toNat / 2 ^ 63 * 2 ^ 63 := by
    by_cases hneg : isNegative x
    · have hle := isNegative_iff.mp hneg
      rw [if_pos hneg]
      omega
    · have hnle := mt isNegative_iff.mpr hneg
      rw [if_neg hneg]
      omega
  simp only [ofFloat?, toNat_exponentBits, toNat_mantissaBits] at h
  split at h
  case isTrue => cases h
  case isFalse hfinite =>
    by_cases hzero : x.toBits.toNat / 2 ^ 52 % 2 ^ 11 = 0
    · rw [if_pos hzero] at h
      have hlow : x.toBits.toNat % 2 ^ 52 < 2 ^ 52 := Nat.mod_lt _ (by norm_num)
      have hcanonical : Canonical (x.toBits.toNat % 2 ^ 52) (-1074) :=
        ⟨by omega, le_rfl, by norm_num, .inr rfl⟩
      refine ⟨_, _, hcanonical, (Option.some.inj h).symm, eq_ofParts hcanonical ?_⟩
      rw [toNat_assemble_of_lt hlow, hsign]
      omega
    · rw [if_neg hzero] at h
      have hcanonical : Canonical (2 ^ 52 + x.toBits.toNat % 2 ^ 52)
          ((x.toBits.toNat / 2 ^ 52 % 2 ^ 11 : ℕ) - 1075) :=
        ⟨by omega, by omega, by omega, .inl (by omega)⟩
      refine ⟨_, _, hcanonical, (Option.some.inj h).symm, eq_ofParts hcanonical ?_⟩
      rw [toNat_assemble_of_le hcanonical (by omega), hsign]
      omega

end Bits

section Parts

theorem ofFloat?_of_isNaN (h : x.isNaN) : ofFloat? x = none := by
  rw [Float.isNaN_eq_decide_eq_nan, decide_eq_true_eq] at h
  rw [h]
  decide +kernel

theorem isNaN_eq_false (h : ofFloat? x = some b) : x.isNaN = false := by
  by_contra hnan
  rw [ofFloat?_of_isNaN (Bool.not_eq_false _ ▸ hnan)] at h
  cases h

theorem canonical (h : ofFloat? x = some b) : Canonical b.mantissa.natAbs b.exponent := by
  obtain ⟨m, q, hcanonical, rfl, -⟩ := exists_parts h
  split <;> simpa using hcanonical

theorem isNegative_eq (h : ofFloat? x = some b) (hb : b.mantissa ≠ 0) :
    isNegative x = decide (b.mantissa < 0) := by
  obtain ⟨m, q, -, rfl, -⟩ := exists_parts h
  cases hneg : isNegative x with
  | false => simp
  | true =>
    have hm : m ≠ 0 := by simpa [hneg] using hb
    simpa using Nat.pos_of_ne_zero hm

theorem eq_ofParts_of_ne_zero (h : ofFloat? x = some b) (hb : b.mantissa ≠ 0) :
    x = ofParts (b.mantissa < 0) b.mantissa.natAbs b.exponent := by
  rw [← isNegative_eq h hb]
  obtain ⟨m, q, -, rfl, hx⟩ := exists_parts h
  split <;> simpa using hx

/-- A zero is one of the two zeros. -/
theorem eq_zero_of_mantissa (h : ofFloat? x = some b) (hb : b.mantissa = 0) :
    x = ofParts (isNegative x) 0 (-1074) := by
  obtain ⟨m, q, hcanonical, rfl, hx⟩ := exists_parts h
  have hm : m = 0 := by
    split at hb <;> simpa using hb
  have hq : q = -1074 := hcanonical.full.resolve_left (by omega)
  rwa [hm, hq] at hx

end Parts

end Binary

end Gridding
