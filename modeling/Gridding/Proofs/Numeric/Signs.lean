import Gridding.Proofs.Numeric.Doubles

/-!
# Signs in the arithmetic of doubles

A double is unpacked into a sign, a mantissa and an exponent to be computed with, and the result is
rounded and packed. A finite double less itself is zero, sums and multiples of what is not negative
are not negative, and negation changes the sign bit and nothing else.
-/

namespace Gridding

open Float.Model (Format UnpackedFloat)
open Float.Model.UnpackedFloat

/-- The numbers from zero on. -/
inductive IsNonneg : UnpackedFloat → Prop
  | infinity : IsNonneg (.infinity .positive)
  | zero (s : Sign) : IsNonneg (.zero s)
  | finite (m : ℕ) (e : ℤ) (hm : 0 < m) : IsNonneg (.finite .positive m e hm)

namespace IsNonneg

variable {u v : UnpackedFloat}

theorem roundWithAccuracy (m : ℕ) (e : ℤ) (accuracy : Accuracy) :
    IsNonneg (UnpackedFloat.roundWithAccuracy Format.binary64 .positive m e accuracy) := by
  rw [UnpackedFloat.roundWithAccuracy]
  simp only
  split
  · exact .zero _
  · exact .finite ..

theorem normalize {m : ℤ} (hm : 0 ≤ m) (e : ℤ) :
    IsNonneg (UnpackedFloat.normalize Format.binary64 m e .positive) := by
  rw [UnpackedFloat.normalize]
  split
  case h_1 h => exact absurd (compare_lt_iff_lt.mp h) (not_lt.mpr hm)
  case h_2 => exact .zero _
  case h_3 => exact roundWithAccuracy ..

theorem add (hu : IsNonneg u) (hv : IsNonneg v) : IsNonneg (u.add Format.binary64 v) := by
  cases hu with
  | infinity => cases hv <;> exact .infinity
  | zero s =>
    cases hv with
    | infinity => exact .infinity
    | zero s' =>
      rw [UnpackedFloat.add]
      split <;> exact .zero _
    | finite m e hm => exact .finite m e hm
  | finite m e hm =>
    cases hv with
    | infinity => exact .infinity
    | zero s => exact .finite m e hm
    | finite m' e' hm' =>
      exact normalize (Int.add_nonneg (Int.natCast_nonneg _) (Int.natCast_nonneg _)) _

theorem mul (m : ℕ) (e : ℤ) (hm : 0 < m) (hv : IsNonneg v) :
    IsNonneg (UnpackedFloat.mul Format.binary64 (.finite .positive m e hm) v) := by
  cases hv with
  | infinity => exact .infinity
  | zero s => exact .zero _
  | finite m' e' hm' => exact roundWithAccuracy ..

theorem abs (hu : u ≠ .notANumber) : IsNonneg u.abs := by
  cases u with
  | infinity s => exact .infinity
  | notANumber => exact absurd rfl hu
  | zero s => exact .zero _
  | finite s m e hm => exact .finite m e hm

theorem zero_le (hu : IsNonneg u) (s : Sign) : (UnpackedFloat.zero s).le u := by
  cases hu <;> rfl

theorem unpack_packComponents {e : BitVec Format.binary64.exponentBits} (he : e ≠ -1#_)
    (m : BitVec Format.binary64.mantissaBitsWithoutImplicit) :
    IsNonneg (UnpackedFloat.unpack Format.binary64
      (packComponents Format.binary64 .positive e m)) := by
  simp only [UnpackedFloat.unpack, unpackExponent_packComponents, unpackMantissa_packComponents,
    unpackSign_packComponents, Sign.ofBitVec_toBitVec, if_neg he]
  split
  · split
    · exact .zero _
    · exact .finite ..
  · exact .finite ..

/-- What is packed and unpacked keeps its sign and stays a number. -/
theorem unpack_pack (hu : IsNonneg u) : IsNonneg (Float.Model.pack u).unpack := by
  cases hu with
  | infinity => exact .infinity
  | zero s => cases s <;> exact .zero _
  | finite m e hm =>
    change IsNonneg (UnpackedFloat.unpack Format.binary64 (UnpackedFloat.pack Format.binary64 _))
    rw [UnpackedFloat.pack]
    simp only
    split
    · exact .infinity
    · next hfits =>
      split
      · refine unpack_packComponents (fun h => hfits ?_) _
        have hnat := congrArg BitVec.toNat h
        rw [BitVec.toNat_ofNat, Nat.mod_eq_of_lt (Nat.lt_of_succ_lt (not_le.mp hfits))] at hnat
        rw [hnat]
        decide
      · exact unpack_packComponents (by decide) _

end IsNonneg

/-- The numbers that are neither infinite nor missing. -/
inductive IsFinite : UnpackedFloat → Prop
  | zero (s : Sign) : IsFinite (.zero s)
  | finite (s : Sign) (m : ℕ) (e : ℤ) (hm : 0 < m) : IsFinite (.finite s m e hm)

namespace IsFinite

variable {u : UnpackedFloat}

theorem ne_notANumber (hu : IsFinite u) : u ≠ .notANumber := by
  rintro rfl
  cases hu

theorem sub_self (hu : IsFinite u) : u.sub Format.binary64 u = .zero .positive := by
  cases hu with
  | zero s => cases s <;> rfl
  | finite s m e hm =>
    rw [UnpackedFloat.sub]
    simp only [Int.sub_self]
    rfl

end IsFinite

section Nearness

variable {x : Float} {b : Binary}

theorem toNat_unpackExponent (x : Float) :
    (@unpackExponent Format.binary64 x.toBits.toBitVec).toNat =
      x.toBits.toNat / 2 ^ 52 % 2 ^ 11 := by
  rw [unpackExponent_def, BitVec.extractLsb'_toNat, Nat.shiftRight_eq_div_pow]
  rfl

theorem isFinite_unpack (h : Binary.ofFloat? x = some b) : IsFinite x.toModel.unpack := by
  have hfinite : @unpackExponent Format.binary64 x.toBits.toBitVec ≠ -1#_ := by
    intro hall
    have hnat := congrArg BitVec.toNat hall
    rw [toNat_unpackExponent, ← Binary.toNat_exponentBits] at hnat
    simp only [Binary.ofFloat?] at h
    rw [hnat] at h
    cases h
  change IsFinite (UnpackedFloat.unpack Format.binary64 x.toBits.toBitVec)
  simp only [UnpackedFloat.unpack, if_neg hfinite]
  split
  · split
    · exact .zero _
    · exact .finite ..
  · exact .finite ..

theorem sub_self_eq (h : Binary.ofFloat? x = some b) : x - x = 0.0 := by
  change Float.ofModel (Float.Model.pack (x.toModel.unpack.sub Format.binary64 x.toModel.unpack)) = _
  rw [(isFinite_unpack h).sub_self]
  decide +kernel

theorem isNonneg_abs (h : Binary.ofFloat? x = some b) : IsNonneg x.abs.toModel.unpack :=
  (IsNonneg.abs (isFinite_unpack h).ne_notANumber).unpack_pack

/-- The slack of a whole number is not negative. -/
theorem isNonneg_slack (h : Binary.ofFloat? x = some b) :
    IsNonneg (1e-8 + 1e-5 * x.abs).toModel.unpack := by
  have hleast : (1e-8 : Float).toModel.unpack =
    .finite .positive 6044629098073146 (-79) (by decide) := rfl
  have hshare : (1e-5 : Float).toModel.unpack =
    .finite .positive 5902958103587057 (-69) (by decide) := rfl
  have hscaled : IsNonneg (1e-5 * x.abs).toModel.unpack := by
    change IsNonneg (Float.Model.pack ((1e-5 : Float).toModel.unpack.mul _ _)).unpack
    rw [hshare]
    exact (IsNonneg.mul _ _ _ (isNonneg_abs h)).unpack_pack
  change IsNonneg (Float.Model.pack ((1e-8 : Float).toModel.unpack.add _ _)).unpack
  rw [hleast]
  exact (IsNonneg.add (.finite ..) hscaled).unpack_pack

/-- Every finite double is as near to itself as to a whole number that it counts as. -/
theorem sub_self_le_slack (h : Binary.ofFloat? x = some b) :
    (x - x).abs ≤ 1e-8 + 1e-5 * x.abs := by
  rw [sub_self_eq h]
  exact decide_eq_true ((isNonneg_slack h).zero_le .positive)

end Nearness

section Negation

variable {n : UInt64}

theorem unpack_pack_unpack (v : BitVec 64) :
    UnpackedFloat.unpack Format.binary64
      (UnpackedFloat.pack Format.binary64 (UnpackedFloat.unpack Format.binary64 v)) =
      UnpackedFloat.unpack Format.binary64 v := by
  rw [pack_unpack]
  split
  case isTrue hnan =>
    simp only [isNaNBits, decide_eq_true_eq] at hnan
    rw [unpack_packedNaN, UnpackedFloat.unpack]
    simp only [hnan.1, hnan.2, if_true, if_false]
  case isFalse => rfl

theorem unpackSign_of_lt (h : n.toNat < 2 ^ 63) :
    @unpackSign Format.binary64 n.toBitVec = 0#1 := by
  apply BitVec.eq_of_toNat_eq
  rw [unpackSign_def, BitVec.extractLsb'_toNat, Nat.shiftRight_eq_div_pow]
  change n.toNat / 2 ^ 63 % 2 ^ 1 = 0
  omega

theorem unpack_or_sign (h : n.toNat < 2 ^ 63) :
    UnpackedFloat.unpack Format.binary64 (n ||| 0x8000000000000000).toBitVec =
      (UnpackedFloat.unpack Format.binary64 n.toBitVec).neg := by
  have hsign := unpackSign_of_lt h
  have hflipped : @unpackSign Format.binary64 (n ||| 0x8000000000000000).toBitVec = 1#1 := by
    rw [unpackSign_def, UInt64.toBitVec_or, BitVec.extractLsb'_or, ← unpackSign_def, hsign]
    decide
  have hexponent : @unpackExponent Format.binary64 (n ||| 0x8000000000000000).toBitVec =
      @unpackExponent Format.binary64 n.toBitVec := by
    rw [unpackExponent_def, unpackExponent_def, UInt64.toBitVec_or, BitVec.extractLsb'_or]
    exact BitVec.or_zero
  have hmantissa : @unpackMantissa Format.binary64 (n ||| 0x8000000000000000).toBitVec =
      @unpackMantissa Format.binary64 n.toBitVec := by
    rw [unpackMantissa_def, unpackMantissa_def, UInt64.toBitVec_or, BitVec.extractLsb'_or]
    exact BitVec.or_zero
  simp only [UnpackedFloat.unpack, hsign, hflipped, hexponent, hmantissa]
  split_ifs <;> rfl

/-- Negation sets the sign bit of a number that has none. -/
theorem neg_ofBits (h : n.toNat < 2 ^ 63) :
    -Float.ofBits n = Float.ofBits (n ||| 0x8000000000000000) := by
  change Float.ofModel (Float.Model.pack (UnpackedFloat.unpack Format.binary64
    (UnpackedFloat.pack Format.binary64 (UnpackedFloat.unpack Format.binary64 n.toBitVec))).neg) =
    Float.ofModel (Float.Model.pack (UnpackedFloat.unpack Format.binary64 _))
  rw [unpack_pack_unpack, unpack_or_sign h]

theorem neg_ofParts {m : ℕ} {q : ℤ} (h : Binary.Canonical m q) :
    -Binary.ofParts false m q = Binary.ofParts true m q :=
  neg_ofBits (Binary.toNat_assemble_lt h)

end Negation

end Gridding
