import Gridding.Proofs.Numeric.Reading
import Gridding.Proofs.Numeric.Shortest
import Gridding.Proofs.Numeric.Signs

/-!
# Doubles as text

The shortest text of a finite double is a numeral with a point or an exponent, of a decimal that is
rounded to the double. So reading the text gives the double again, and no integer is written so.
-/

namespace Gridding

open Reading Binary

section Digits

theorem naturalOfDigits_append (xs ys : List Char) : naturalOfDigits (xs ++ ys) =
    naturalOfDigits xs * 10 ^ ys.length + naturalOfDigits ys := by
  change Nat.ofDigitChars 10 (xs ++ ys) 0 = _
  rw [Nat.ofDigitChars_append, Nat.ofDigitChars_eq_ofDigitChars_zero, Nat.mul_comm]
  rfl

theorem naturalOfDigits_replicate (n : ℕ) : naturalOfDigits (List.replicate n '0') = 0 :=
  Nat.ofDigitChars_replicate_zero

theorem naturalOfDigits_toDigits (n : ℕ) : naturalOfDigits (Nat.toDigits 10 n) = n :=
  Nat.ofDigitChars_ten_toDigits

/-- Zeros in front do not count. -/
theorem naturalOfDigits_zeros (n : ℕ) (ds : List Char) :
    naturalOfDigits (List.replicate n '0' ++ ds) = naturalOfDigits ds := by
  rw [naturalOfDigits_append, naturalOfDigits_replicate, Nat.zero_mul, Nat.zero_add]

theorem isDigit_toDigits (n : ℕ) : ∀ c ∈ Nat.toDigits 10 n, c.isDigit := fun _ hc =>
  Nat.isDigit_of_mem_toDigits (by norm_num) (by norm_num) hc

theorem isDigit_replicate (n : ℕ) : ∀ c ∈ List.replicate n '0', c.isDigit := fun _ hc => by
  rw [List.eq_of_mem_replicate hc]
  rfl

theorem isDigit_append {xs ys : List Char} (hxs : ∀ c ∈ xs, c.isDigit) (hys : ∀ c ∈ ys, c.isDigit) :
    ∀ c ∈ xs ++ ys, c.isDigit := fun _ hc =>
  (List.mem_append.mp hc).elim (hxs _) (hys _)

theorem isDigit_or_of_mem_toString (n : ℤ) {c : Char} (h : c ∈ (toString n).toList) :
    c.isDigit ∨ c = '-' := by
  rw [Int.toString_eq_repr, Int.repr_eq_if] at h
  split_ifs at h
  · rw [Nat.repr_eq_ofList_toDigits, String.toList_ofList] at h
    exact .inl (isDigit_toDigits _ c h)
  · rw [String.toList_append, List.mem_append, Nat.repr_eq_ofList_toDigits] at h
    rcases h with hsign | hdigit
    · exact .inr (List.mem_singleton.mp hsign)
    · rw [String.toList_ofList] at hdigit
      exact .inl (isDigit_toDigits _ c hdigit)

/-- The exponent of a double is written with at least two digits. -/
def Exponent.ofInt (k : ℤ) : Exponent where
  mark := 'e'
  sign := if k < 0 then .minus else .plus
  digits := List.replicate (2 - (Nat.toDigits 10 k.natAbs).length) '0' ++ Nat.toDigits 10 k.natAbs
  isMark := by decide
  isDigit := isDigit_append (isDigit_replicate _) (isDigit_toDigits _)
  digits_ne := List.append_ne_nil_of_right_ne_nil _ Nat.toDigits_ne_nil

theorem Exponent.value_ofInt (k : ℤ) : (Exponent.ofInt k).value = k := by
  simp only [Exponent.value, ofInt, naturalOfDigits_zeros, naturalOfDigits_toDigits]
  by_cases hk : k < 0
  · simp only [hk, if_true, Sign.isMinus]
    omega
  · simp only [hk, if_false, Sign.isMinus]
    exact Int.natAbs_of_nonneg (by omega)

theorem Exponent.text_ofInt (k : ℤ) :
    (Exponent.ofInt k).text = 'e' :: (Decimal.exponentText k).toList := by
  simp only [Exponent.text, ofInt, Decimal.exponentText, Decimal.padLeft, Decimal.digitsOf,
    String.toList_append, String.toList_ofList, String.length_ofList]
  by_cases hk : k < 0
  · rw [if_pos hk, if_pos hk]
    rfl
  · rw [if_neg hk, if_neg hk]
    rfl

end Digits

namespace Numeral

/-- The number a numeral stands for, without its sign. -/
def magnitude (n : Numeral) : ℚ :=
  naturalOfDigits (n.whole ++ n.places.getD []) *
    10 ^ ((n.exponent.map (·.value)).getD 0 - (n.places.getD []).length)

/-- Is a text that of a numeral behind its sign, with a point or a usual mark for the exponent? -/
structure Writes (n : Numeral) (text : List Char) (v : ℚ) : Prop where
  unsigned : n.unsigned = text
  magnitude : n.magnitude = v
  marked : n.places.isSome ∨ n.exponent.isSome
  usual : ∀ e ∈ n.exponent, e.mark = 'e'

end Numeral

namespace Decimal

section Layout

variable (s : Sign) {ds : List Char} {k : ℤ}

theorem exists_stripZeros (ds : List Char) :
    ∃ z, ds = stripZeros ds ++ List.replicate z '0' := by
  have hzeros : ∀ c ∈ ds.reverse.takeWhile (· == '0'), c = '0' := fun c hc => by
    simpa using List.mem_takeWhile_imp hc
  refine ⟨(ds.reverse.takeWhile (· == '0')).length, ?_⟩
  rw [stripZeros, ← List.reverse_replicate, ← List.eq_replicate_of_mem hzeros, ← List.reverse_append,
    List.takeWhile_append_dropWhile, List.reverse_reverse]

/-- Zeros that end the digits do not count, over the exponent of the first one. -/
theorem magnitude_append_zeros (ds : List Char) (z : ℕ) (k : ℤ) :
    (naturalOfDigits (ds ++ List.replicate z '0') *
      10 ^ (k + 1 - (ds ++ List.replicate z '0').length) : ℚ) =
      naturalOfDigits ds * 10 ^ (k + 1 - ds.length) := by
  rw [naturalOfDigits_append, naturalOfDigits_replicate, List.length_append, List.length_replicate]
  push_cast
  rw [add_zero, mul_assoc, ← zpow_natCast, ← zpow_add₀ (by norm_num)]
  congr 2
  ring

/-- Digits behind the point. -/
theorem exists_writes_small (hds : ∀ c ∈ ds, c.isDigit) (hk : k < 0) :
    ∃ n : Numeral, n.sign = s ∧ n.Writes
      (("0." ++ String.ofList (List.replicate (-k - 1).toNat '0' ++ ds)).toList)
      (naturalOfDigits ds * 10 ^ (k + 1 - ds.length)) := by
  refine ⟨{
    sign := s
    whole := List.replicate 1 '0'
    places := some (List.replicate (-k - 1).toNat '0' ++ ds)
    exponent := none
    isDigit := isDigit_append (isDigit_replicate 1) (isDigit_append (isDigit_replicate _) hds)
    digits_ne := List.cons_ne_nil _ _ }, rfl, ?_, ?_, .inl rfl, by simp⟩
  · simp [Numeral.unsigned, Numeral.point, Numeral.tail]
  · simp only [Numeral.magnitude, Option.getD_some, Option.map_none, Option.getD_none]
    rw [naturalOfDigits_zeros, naturalOfDigits_zeros, List.length_append, List.length_replicate]
    congr 2
    omega

/-- Digits before the point, filled up with zeros. -/
theorem exists_writes_whole (hds : ∀ c ∈ ds, c.isDigit) (hne : ds ≠ []) (hk : ds.length ≤ k + 1) :
    ∃ n : Numeral, n.sign = s ∧ n.Writes
      (String.ofList (ds ++ List.replicate (k.toNat + 1 - ds.length) '0') ++ ".0").toList
      (naturalOfDigits ds * 10 ^ (k + 1 - ds.length)) := by
  refine ⟨{
    sign := s
    whole := ds ++ List.replicate (k.toNat + 1 - ds.length) '0'
    places := some ['0']
    exponent := none
    isDigit := isDigit_append (isDigit_append hds (isDigit_replicate _)) (isDigit_replicate 1)
    digits_ne := List.append_ne_nil_of_right_ne_nil _ (List.cons_ne_nil _ _) }, rfl, ?_, ?_,
    .inl rfl, by simp⟩
  · simp [Numeral.unsigned, Numeral.point, Numeral.tail]
  · simp only [Numeral.magnitude, Option.getD_some, Option.map_none, Option.getD_none]
    have hlength := List.length_pos_of_ne_nil hne
    have hpad : k + 1 - ds.length = (k.toNat + 1 - ds.length : ℕ) := by omega
    rw [naturalOfDigits_append, naturalOfDigits_append, naturalOfDigits_replicate,
      show naturalOfDigits ['0'] = 0 from rfl, List.length_replicate, hpad, zpow_natCast]
    push_cast
    norm_num
    field_simp

/-- Digits on both sides of the point. -/
theorem exists_writes_split (hds : ∀ c ∈ ds, c.isDigit) (hk : 0 ≤ k) (hlt : k + 1 < ds.length) :
    ∃ n : Numeral, n.sign = s ∧ n.Writes
      (String.ofList (ds.take (k.toNat + 1)) ++ ("." ++ String.ofList (ds.drop (k.toNat + 1)))).toList
      (naturalOfDigits ds * 10 ^ (k + 1 - ds.length)) := by
  refine ⟨{
    sign := s
    whole := ds.take (k.toNat + 1)
    places := some (ds.drop (k.toNat + 1))
    exponent := none
    isDigit := by simpa using hds
    digits_ne := by
      rw [Option.getD_some, List.take_append_drop]
      exact List.ne_nil_of_length_pos (by omega) }, rfl, ?_, ?_, .inl rfl, by simp⟩
  · simp [Numeral.unsigned, Numeral.point, Numeral.tail]
  · simp only [Numeral.magnitude, Option.getD_some, Option.map_none, Option.getD_none]
    rw [List.take_append_drop, List.length_drop]
    congr 2
    omega

/-- Digits with an exponent. -/
theorem exists_writes_exponent (hds : ∀ c ∈ ds, c.isDigit) (hne : ds ≠ []) :
    ∃ n : Numeral, n.sign = s ∧ n.Writes
      (String.ofList (ds.take 1) ++ (if (ds.drop 1).isEmpty then "" else
        "." ++ String.ofList (ds.drop 1)) ++ "e" ++ exponentText k).toList
      (naturalOfDigits ds * 10 ^ (k + 1 - ds.length)) := by
  have hplaces : (if (ds.drop 1).isEmpty then none else some (ds.drop 1)).getD [] = ds.drop 1 := by
    split_ifs with hempty
    · exact (List.isEmpty_iff.mp hempty).symm
    · rfl
  have hall : ds.take 1 ++ (if (ds.drop 1).isEmpty then none else some (ds.drop 1)).getD [] = ds := by
    rw [hplaces, List.take_append_drop]
  refine ⟨{
    sign := s
    whole := ds.take 1
    places := if (ds.drop 1).isEmpty then none else some (ds.drop 1)
    exponent := some (.ofInt k)
    isDigit := by rwa [hall]
    digits_ne := by rwa [hall] }, rfl, ?_, ?_, .inr rfl, ?_⟩
  · simp only [Numeral.unsigned, Numeral.point, Numeral.tail, Option.map_some, Option.getD_some,
      Exponent.text_ofInt]
    split_ifs <;> simp
  · have hlength := List.length_pos_of_ne_nil hne
    simp only [Numeral.magnitude, Option.map_some, Option.getD_some, Exponent.value_ofInt]
    rw [hall, hplaces, List.length_drop]
    congr 2
    omega
  · rintro e he
    rw [← Option.some.inj he]
    rfl

/-- However digits are laid out, it is a numeral of the digits over the exponent of the first. -/
theorem exists_writes_layout (hds : ∀ c ∈ ds, c.isDigit) (hpos : naturalOfDigits ds ≠ 0) :
    ∃ n : Numeral, n.sign = s ∧ n.Writes (layout ds k 16 ".0").toList
      (naturalOfDigits ds * 10 ^ (k + 1 - ds.length)) := by
  obtain ⟨z, hz⟩ := exists_stripZeros ds
  have hdigits : ∀ c ∈ stripZeros ds, c.isDigit := fun c hc =>
    hds c (hz ▸ List.mem_append_left _ hc)
  have hne : stripZeros ds ≠ [] := by
    intro hempty
    rw [hz, hempty, List.nil_append, naturalOfDigits_replicate] at hpos
    exact hpos rfl
  have hvalue := magnitude_append_zeros (stripZeros ds) z k
  rw [← hz] at hvalue
  rw [hvalue, layout]
  generalize stripZeros ds = ds at hdigits hne ⊢
  by_cases hplain : -4 ≤ k && k < 16
  · rw [if_pos hplain]
    by_cases hneg : k < 0
    · rw [if_pos hneg]
      exact exists_writes_small s hdigits hneg
    · rw [if_neg hneg]
      by_cases hfits : ds.length ≤ k + 1
      · have htake : ds.take (k.toNat + 1) = ds := List.take_of_length_le (by omega)
        have hrest : ds.drop (k.toNat + 1) = [] := List.drop_of_length_le (by omega)
        simp only [htake, hrest, List.isEmpty_nil, if_true]
        exact exists_writes_whole s hdigits hne hfits
      · have hlength : (ds.take (k.toNat + 1)).length = k.toNat + 1 := by
          rw [List.length_take]
          omega
        have hrest : (ds.drop (k.toNat + 1)).isEmpty = false := by
          rw [List.isEmpty_eq_false_iff, ← List.length_pos_iff, List.length_drop]
          omega
        simp only [hlength, hrest, Nat.sub_self, List.replicate_zero, List.append_nil]
        exact exists_writes_split s hdigits (by omega) (by omega)
  · rw [if_neg hplain]
    exact exists_writes_exponent s hdigits hne

end Layout

end Decimal

section Reading

variable {x : Float} {b : Binary} {m : ℕ} {q e : ℤ}

theorem length_toDigits_bounds {n : ℕ} (hn : 0 < n) :
    10 ^ ((Nat.toDigits 10 n).length - 1) ≤ n ∧ n < 10 ^ (Nat.toDigits 10 n).length := by
  have hlength : 0 < (Nat.toDigits 10 n).length := Nat.length_toDigits_pos
  refine ⟨?_, (Nat.length_toDigits_le_iff (by norm_num) hlength).mp le_rfl⟩
  rcases Nat.eq_zero_or_pos ((Nat.toDigits 10 n).length - 1) with hone | hmore
  · rw [hone, pow_zero]
    exact hn
  · rw [← not_lt, ← Nat.length_toDigits_le_iff (by norm_num) hmore]
    omega

/-- A tenfold step is more than three twofold ones. -/
theorem two_zpow_lt_ten {p : ℤ} {n : ℕ} (h : p < 3 * n) : (2 : ℚ) ^ p < 10 ^ (n : ℤ) := by
  calc (2 : ℚ) ^ p < 2 ^ (3 * n : ℤ) := zpow_lt_zpow_right₀ one_lt_two h
    _ = 8 ^ (n : ℤ) := by
      rw [zpow_mul]
      norm_num
    _ ≤ 10 ^ (n : ℤ) := zpow_le_zpow_left₀ (by positivity) (by norm_num) (by norm_num)

/-- What is rounded to doubles that are not zero is neither too small nor too large to be read. -/
theorem range_of_roundsTo (hm : 0 < m) (hcanonical : Canonical m q) {v : ℚ} (h : RoundsTo m q v) :
    (10 : ℚ) ^ (-401 : ℤ) < v ∧ v < 10 ^ (400 : ℤ) := by
  constructor
  · calc (10 : ℚ) ^ (-401 : ℤ) < 2 ^ (-1075 : ℤ) := by
          rw [zpow_neg, zpow_neg]
          exact inv_strictAnti₀ (by positivity) (two_zpow_lt_ten (n := 401) (by norm_num))
      _ = 1 / 2 * 2 ^ (-1074 : ℤ) := by
          rw [show (-1075 : ℤ) = -1074 - 1 by norm_num, zpow_sub_one₀ two_ne_zero]
          ring
      _ ≤ 1 / 2 * 2 ^ q := by
          gcongr
          · exact one_le_two
          · exact hcanonical.least
      _ ≤ (m - reach m q) * 2 ^ q := by
          have hreach := reach_le m q
          have hone : (1 : ℚ) ≤ m := by exact_mod_cast hm
          gcongr
          linarith
      _ ≤ v := h.low
  · calc v < 2 ^ 53 * 2 ^ q := h.lt hcanonical.lt
      _ ≤ 2 ^ 53 * 2 ^ (971 : ℤ) := by
          gcongr
          · exact one_le_two
          · exact hcanonical.most
      _ < 10 ^ (400 : ℤ) := by
          rw [two_pow_mul]
          exact two_zpow_lt_ten (n := 400) (by norm_num)

/-- Decimals that are rounded to doubles are within the range that is read. -/
theorem size_bounds (hm : 0 < m) (hcanonical : Canonical m q) {digits : ℕ} (hdigits : 0 < digits)
    (h : RoundsTo m q (digits * 10 ^ e)) :
    (Nat.toDigits 10 digits).length + e ≤ 400 ∧ -400 ≤ (Nat.toDigits 10 digits).length + e := by
  obtain ⟨hlow, hhigh⟩ := length_toDigits_bounds hdigits
  obtain ⟨hleast, hmost⟩ := range_of_roundsTo hm hcanonical h
  have hlength : 0 < (Nat.toDigits 10 digits).length := Nat.length_toDigits_pos
  have hscale : (0 : ℚ) < 10 ^ e := by positivity
  generalize (Nat.toDigits 10 digits).length = l at *
  constructor
  · have hlt : (10 : ℚ) ^ (l - 1 + e) < 10 ^ (400 : ℤ) := by
      calc (10 : ℚ) ^ (l - 1 + e) = (10 ^ (l - 1) : ℕ) * 10 ^ e := by
            rw [zpow_add₀ (by norm_num), show (l - 1 : ℤ) = (l - 1 : ℕ) by omega, zpow_natCast]
            push_cast
            rfl
        _ ≤ digits * 10 ^ e := by gcongr
        _ < 10 ^ (400 : ℤ) := hmost
    rw [zpow_lt_zpow_iff_right₀ (by norm_num)] at hlt
    omega
  · have hlt : (10 : ℚ) ^ (-401 : ℤ) < 10 ^ (l + e) := by
      calc (10 : ℚ) ^ (-401 : ℤ) < digits * 10 ^ e := hleast
        _ ≤ (10 ^ l : ℕ) * 10 ^ e := by gcongr
        _ = 10 ^ (l + e) := by
            rw [zpow_add₀ (by norm_num)]
            push_cast
            rw [zpow_natCast]
    rw [zpow_lt_zpow_iff_right₀ (by norm_num)] at hlt
    omega

/-- A decimal that is rounded to a double is read as the double. -/
theorem floatOfDecimal_eq (hm : 0 < m) (hcanonical : Canonical m q) {digits : ℕ}
    (h : RoundsTo m q (digits * 10 ^ e)) (negative : Bool) :
    floatOfDecimal negative digits e = ofParts negative m q := by
  have hdigits : 0 < digits := by
    rcases Nat.eq_zero_or_pos digits with rfl | hpos
    · have hpos := h.pos hm
      simp at hpos
    · exact hpos
  obtain ⟨hmost, hleast⟩ := size_bounds hm hcanonical hdigits h
  have hvalue : ((digits * 10 ^ e.toNat : ℕ) : ℚ) / (10 ^ (-e).toNat : ℕ) = digits * 10 ^ e := by
    rw [zpow_eq_div]
    push_cast
    ring
  have hround : roundRatio ((digits * 10 ^ e.toNat : ℕ) : ℤ) (10 ^ (-e).toNat) =
      ofParts false m q := by
    have hpos : 0 < digits * 10 ^ e.toNat := by positivity
    refine (roundRatio_eq hm hcanonical (by positivity) ?_ (by omega)).trans ?_
    · rwa [Int.natAbs_natCast, hvalue]
    · rw [decide_eq_false (by omega)]
  simp only [floatOfDecimal, Nat.pow_eq, hround]
  rw [if_neg hdigits.ne', if_neg (not_lt.mpr hmost), if_neg (not_lt.mpr hleast)]
  cases negative
  · rfl
  · exact neg_ofParts hcanonical

theorem floatOfDecimal_zero (negative : Bool) (e : ℤ) :
    floatOfDecimal negative 0 e = ofParts negative 0 (-1074) := by
  cases negative <;> simp only [floatOfDecimal, if_true] <;> decide +kernel

theorem Numeral.value_eq {n : Numeral} (hm : 0 < m) (hcanonical : Canonical m q)
    (h : RoundsTo m q n.magnitude) : n.value = ofParts n.sign.isMinus m q :=
  floatOfDecimal_eq hm hcanonical h _

theorem Numeral.value_of_zero {n : Numeral} (h : n.magnitude = 0) :
    n.value = ofParts n.sign.isMinus 0 (-1074) := by
  have hscale : ∀ e : ℤ, (10 : ℚ) ^ e ≠ 0 := fun e => by positivity
  have hdigits := (mul_eq_zero.mp h).resolve_right (hscale _)
  rw [Numeral.value, Nat.cast_eq_zero.mp hdigits, floatOfDecimal_zero]

end Reading

namespace Decimal

variable {x : Float} {b : Binary}

/-- A finite double is written as a numeral of which it is the value. -/
theorem exists_numeral_shortest (h : ofFloat? x = some b) : ∃ n : Numeral,
    n.text = (shortest x).toList ∧ (n.places.isSome ∨ n.exponent.isSome) ∧
      (∀ e ∈ n.exponent, e.mark = 'e') ∧ n.value = x := by
  obtain ⟨s, hsign, htext⟩ : ∃ s : Sign, s.isMinus = isNegative x ∧
      s.text = (if isNegative x then "-" else "").toList := by
    cases isNegative x
    · exact ⟨.absent, rfl, rfl⟩
    · exact ⟨.minus, rfl, rfl⟩
  simp only [shortest, h, shortestText]
  by_cases hb : b.mantissa = 0
  · obtain ⟨n, hs, hwrites⟩ :=
      exists_writes_whole s (k := 0) (isDigit_replicate 1) (by simp) (by simp)
    refine ⟨n, ?_, hwrites.marked, hwrites.usual, ?_⟩
    · simp only [if_pos hb, Numeral.text, hs, htext, hwrites.unsigned, String.toList_append]
      rfl
    · have hzero : n.magnitude = 0 := by simp [hwrites.magnitude, naturalOfDigits]
      rw [Numeral.value_of_zero hzero, hs, hsign]
      exact (eq_zero_of_mantissa h hb).symm
  · have hm : 0 < b.mantissa.natAbs := Int.natAbs_pos.mpr hb
    obtain ⟨c, e, hdigits, hrounds⟩ := shortestDigits_spec (canonical h) hb
    have hc : naturalOfDigits (Nat.toDigits 10 c) ≠ 0 := by
      rintro hzero
      rw [naturalOfDigits_toDigits] at hzero
      have hpos := hrounds.pos hm
      simp [hzero] at hpos
    obtain ⟨n, hs, hwrites⟩ := exists_writes_layout s (k := (Nat.toDigits 10 c).length - 1 + e)
      (isDigit_toDigits c) hc
    have hmagnitude : n.magnitude = c * 10 ^ e := by
      rw [hwrites.magnitude, naturalOfDigits_toDigits]
      congr 2
      ring
    refine ⟨n, ?_, hwrites.marked, hwrites.usual, ?_⟩
    · rw [if_neg hb, hdigits, Numeral.text, hs, htext, hwrites.unsigned, String.toList_append]
    · rw [Numeral.value_eq hm (canonical h) (hmagnitude ▸ hrounds), hs, hsign, isNegative_eq h hb]
      exact (eq_ofParts_of_ne_zero h hb).symm

/-- The shortest text of a finite double is read as the double. -/
theorem readFloat?_shortest (h : ofFloat? x = some b) : readFloat? (shortest x) = some x := by
  obtain ⟨n, htext, -, husual, hvalue⟩ := exists_numeral_shortest h
  rw [← String.ofList_toList (s := shortest x), ← htext,
    n.readFloat?_text fun e he => .inl (husual e he), hvalue]

/-- Finite doubles with one text are the same. -/
theorem shortest_injective {y : Float} {c : Binary} (hx : ofFloat? x = some b)
    (hy : ofFloat? y = some c) (htext : shortest x = shortest y) : x = y :=
  Option.some.inj (by rw [← readFloat?_shortest hx, htext, readFloat?_shortest hy])

/-- No integer is written as a double is. -/
theorem shortest_ne_toString (h : ofFloat? x = some b) (n : ℤ) : shortest x ≠ toString n := by
  obtain ⟨numeral, htext, hmarked, husual, -⟩ := exists_numeral_shortest h
  intro heq
  rw [heq] at htext
  have hmark : '.' ∈ numeral.text ∨ 'e' ∈ numeral.text := by
    simp only [Numeral.text, Numeral.unsigned, List.mem_append]
    rcases hmarked with hplaces | hexponent
    · obtain ⟨ds, hds⟩ := Option.isSome_iff_exists.mp hplaces
      simp [hds, Numeral.point]
    · obtain ⟨e, he⟩ := Option.isSome_iff_exists.mp hexponent
      simp [Numeral.tail, he, Exponent.text, husual e he]
  rw [htext] at hmark
  rcases hmark with hpoint | hexponent
  · exact absurd (isDigit_or_of_mem_toString n hpoint) (by decide)
  · exact absurd (isDigit_or_of_mem_toString n hexponent) (by decide)

end Decimal

end Gridding
