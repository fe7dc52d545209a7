import Gridding.Proofs.Numeric.Written
import Gridding.Surrogate.Filter

/-!
# Keys of numbers, however they are stored

The key of a number that is kept as it is are its digits if it is whole and its shortest text if it
is not, so that keys tell numbers apart. In a column of doubles a number that is only near to a whole
one gets the key of that one, and whole numbers of more than 64 bits all get one key. Without such
numbers the storage makes no difference to keys, nor to the rows that filters keep.
-/

namespace Gridding

open Binary

namespace Binary

variable {b : Binary} {n : ℤ}

theorem nearestInteger_eq (h : b.value = n) : Column.nearestInteger b = n := by
  have hpos := b.ratio_den_pos
  have hround : roundDiv (b.ratio.1.natAbs) b.ratio.2 .toEven = n.natAbs := by
    rw [ratio_eq_of_value h, Int.natAbs_mul, Int.natAbs_natCast]
    simp only [roundDiv]
    rw [Nat.mul_mod_left, if_pos (by omega), Nat.mul_div_cancel _ hpos]
  have hsign : b.ratio.1 < 0 ↔ n < 0 := by
    rw [ratio_eq_of_value h]
    exact ⟨fun h => neg_of_mul_neg_left h (by omega), fun h => mul_neg_of_neg_of_pos h (by omega)⟩
  simp only [Column.nearestInteger, hround, hsign]
  split_ifs <;> omega

end Binary

namespace Column

variable {x y : Float} {b c : Binary} {n : ℤ}

theorem toString_inj {n k : ℤ} : toString n = toString k ↔ n = k := by
  rw [Int.toString_eq_repr, Int.toString_eq_repr, Int.repr_inj]

theorem key_mixed_whole (h : ofFloat? x = some b) (hn : b.value = n) :
    key .mixed (.number x) = some (toString n) := by
  simp only [key, valueKey, isNaN_eq_false h, h, Bool.false_eq_true, if_false]
  rw [if_pos (isWhole_iff.mpr ⟨n, hn⟩), truncate_eq hn]

theorem key_mixed_fraction (h : ofFloat? x = some b) (hb : ¬ ∃ n : ℤ, b.value = n) :
    key .mixed (.number x) = some (Decimal.shortest x) := by
  simp only [key, valueKey, isNaN_eq_false h, h, Bool.false_eq_true, if_false]
  rw [if_neg (mt isWhole_iff.mp hb)]

theorem key_doubles_number (h : ofFloat? x = some b) : key .doubles (.number x) =
    if isNearlyWhole x (floatOfInt (nearestInteger b)) then some (wordDigits (nearestInteger b))
    else some (Decimal.shortest x) := by
  simp only [key, toFloat, numberKey, isNaN_eq_false h, h, Bool.false_eq_true, if_false]
  rfl

/-- A whole number is near to itself. -/
theorem isNearlyWhole_of_value (h : ofFloat? x = some b) (hn : b.value = n) :
    isNearlyWhole x (floatOfInt n) := by
  by_cases hb : b.mantissa = 0
  · have hzero : n = 0 := by
      rw [value_eq_zero_iff.mpr hb] at hn
      exact_mod_cast hn.symm
    rw [hzero, eq_zero_of_mantissa h hb]
    cases isNegative x <;> decide +kernel
  · rw [floatOfInt_eq h hb hn, isNearlyWhole]
    exact decide_eq_true (sub_self_le_slack h)

theorem wordDigits_eq_iff : wordDigits n = toString n ↔ -(2 ^ 63) ≤ n ∧ n < 2 ^ 63 := by
  simp only [wordDigits, Int.pow_eq, Bool.and_eq_true, decide_eq_true_eq]
  split_ifs with hword
  · exact iff_of_true rfl hword
  · refine iff_of_false ?_ hword
    rw [toString_inj]
    omega

/-- A number has the same key as a double and as it is if it is not taken for a whole number
that it is not, or that is of more than 64 bits. -/
theorem key_doubles_eq_iff (h : ofFloat? x = some b) :
    key .doubles (.number x) = key .mixed (.number x) ↔
      (isNearlyWhole x (floatOfInt (nearestInteger b)) →
        ∃ n : ℤ, b.value = n ∧ -(2 ^ 63) ≤ n ∧ n < 2 ^ 63) := by
  rw [key_doubles_number h]
  by_cases hwhole : ∃ n : ℤ, b.value = n
  · obtain ⟨n, hn⟩ := hwhole
    have hwhole : isNearlyWhole x (floatOfInt n) := isNearlyWhole_of_value h hn
    have hunique : ∀ k : ℤ, b.value = k → k = n := fun k hk => by
      rw [hn] at hk
      exact_mod_cast hk.symm
    rw [nearestInteger_eq hn, if_pos hwhole, key_mixed_whole h hn, Option.some_inj, wordDigits_eq_iff]
    exact ⟨fun hword _ => ⟨n, hn, hword⟩, fun hall => by
      obtain ⟨k, hk, hword⟩ := hall hwhole
      rwa [← hunique k hk]⟩
  · rw [key_mixed_fraction h hwhole]
    split_ifs with hnear
    · refine iff_of_false ?_ fun hall => ?_
      · rw [Option.some_inj, wordDigits]
        split_ifs <;> exact (Decimal.shortest_ne_toString h _).symm
      · obtain ⟨n, hn, -⟩ := hall hnear
        exact hwhole ⟨n, hn⟩
    · exact iff_of_true rfl fun hnot => absurd hnot hnear

/-- The key of a double is an integer's exactly if it is near to a whole number. -/
theorem exists_key_doubles_eq_toString_iff (h : ofFloat? x = some b) :
    (∃ n : ℤ, key .doubles (.number x) = some (toString n)) ↔
      isNearlyWhole x (floatOfInt (nearestInteger b)) := by
  rw [key_doubles_number h]
  split_ifs with hnear
  · refine iff_of_true ?_ hnear
    rw [wordDigits]
    split_ifs
    · exact ⟨_, rfl⟩
    · exact ⟨_, rfl⟩
  · refine iff_of_false ?_ hnear
    rintro ⟨n, hn⟩
    exact Decimal.shortest_ne_toString h n (Option.some.inj hn)

/-- Is a value a finite number or missing? -/
inductive IsAmount : Document → Prop
  | null : IsAmount .null
  | nan {x : Float} (h : x.isNaN) : IsAmount (.number x)
  | finite {x : Float} {b : Binary} (h : ofFloat? x = some b) : IsAmount (.number x)

/-- The number that a value stands for. -/
def amount? : Document → Option ℚ
  | .integer n => some n
  | .number x => (ofFloat? x).map Binary.value
  | _ => none

theorem amount?_nan (h : x.isNaN) : amount? (.number x) = none := by
  rw [amount?, ofFloat?_of_isNaN h, Option.map_none]

theorem amount?_finite (h : ofFloat? x = some b) : amount? (.number x) = some b.value := by
  rw [amount?, h, Option.map_some]

theorem key_nan (h : x.isNaN) : key .doubles (.number x) = none ∧ key .mixed (.number x) = none := by
  constructor
  · simp only [key, toFloat, numberKey, h, if_true]
  · simp only [key, valueKey, h, if_true]

theorem key_doubles_null : key .doubles .null = none := by decide +kernel

theorem IsAmount.missing_or_finite {d : Document} (hd : IsAmount d) :
    (key .doubles d = none ∧ key .mixed d = none ∧ amount? d = none) ∨
      ∃ x b, d = .number x ∧ ofFloat? x = some b := by
  cases hd with
  | null => exact .inl ⟨key_doubles_null, rfl, rfl⟩
  | nan h => exact .inl ⟨(key_nan h).1, (key_nan h).2, amount?_nan h⟩
  | finite h => exact .inr ⟨_, _, rfl, h⟩

/-- The key of a number is an integer's exactly if it is that integer. -/
theorem key_mixed_number_eq_toString_iff (h : ofFloat? x = some b) (n : ℤ) :
    key .mixed (.number x) = some (toString n) ↔ b.value = n := by
  by_cases hb : ∃ k : ℤ, b.value = k
  · obtain ⟨k, hk⟩ := hb
    rw [key_mixed_whole h hk, Option.some_inj, toString_inj, hk, Int.cast_inj]
  · rw [key_mixed_fraction h hb, Option.some_inj]
    exact iff_of_false (Decimal.shortest_ne_toString h n) fun hn => hb ⟨n, hn⟩

/-- Finite numbers have one key only if they are one number. -/
theorem key_mixed_number_eq_iff (hx : ofFloat? x = some b) (hy : ofFloat? y = some c) :
    key .mixed (.number x) = key .mixed (.number y) ↔ b.value = c.value := by
  by_cases hb : ∃ n : ℤ, b.value = n
  · obtain ⟨n, hn⟩ := hb
    rw [key_mixed_whole hx hn, eq_comm, key_mixed_number_eq_toString_iff hy, hn, eq_comm]
  by_cases hc : ∃ n : ℤ, c.value = n
  · obtain ⟨n, hn⟩ := hc
    rw [key_mixed_whole hy hn, key_mixed_number_eq_toString_iff hx, hn]
  · rw [key_mixed_fraction hx hb, key_mixed_fraction hy hc, Option.some_inj]
    constructor
    · intro htext
      obtain rfl := Decimal.shortest_injective hx hy htext
      rw [Option.some.inj (hx.symm.trans hy)]
    · intro hvalue
      have hne : b.mantissa ≠ 0 := fun hzero =>
        hb ⟨0, by rw [value_eq_zero_iff.mpr hzero, Int.cast_zero]⟩
      rw [eq_of_value_eq hx hy hvalue hne]

theorem key_mixed_number_ne_none (h : ofFloat? x = some b) : key .mixed (.number x) ≠ none := by
  by_cases hb : ∃ n : ℤ, b.value = n
  · obtain ⟨n, hn⟩ := hb
    simp [key_mixed_whole h hn]
  · simp [key_mixed_fraction h hb]

/-- Keys of numbers that are kept as they are tell the numbers apart, and what is missing. -/
theorem key_mixed_eq_iff {d e : Document} (hd : IsAmount d) (he : IsAmount e) :
    key .mixed d = key .mixed e ↔ amount? d = amount? e := by
  rcases hd.missing_or_finite with ⟨-, hkey, hamount⟩ | ⟨x, b, rfl, hx⟩ <;>
    rcases he.missing_or_finite with ⟨-, hkey', hamount'⟩ | ⟨y, c, rfl, hy⟩
  · exact iff_of_true (hkey.trans hkey'.symm) (hamount.trans hamount'.symm)
  · rw [hkey, hamount, amount?_finite hy]
    exact iff_of_false (key_mixed_number_ne_none hy).symm (Option.some_ne_none _).symm
  · rw [hkey', hamount', amount?_finite hx]
    exact iff_of_false (key_mixed_number_ne_none hx) (Option.some_ne_none _)
  · rw [amount?_finite hx, amount?_finite hy, Option.some_inj, key_mixed_number_eq_iff hx hy]

theorem key_mixed_eq_toString_iff {d : Document} (hd : IsAmount d) (n : ℤ) :
    key .mixed d = some (toString n) ↔ amount? d = some (n : ℚ) := by
  rcases hd.missing_or_finite with ⟨-, hkey, hamount⟩ | ⟨x, b, rfl, hx⟩
  · rw [hkey, hamount]
    exact iff_of_false (Option.some_ne_none _).symm (Option.some_ne_none _).symm
  · rw [amount?_finite hx, Option.some_inj, key_mixed_number_eq_toString_iff hx]

/-- Is a value an integer of 64 bits or missing? -/
inductive IsWord : Document → Prop
  | null : IsWord .null
  | integer {n : ℤ} (low : -(2 ^ 63) ≤ n) (high : n < 2 ^ 63) : IsWord (.integer n)

theorem key_integers_eq {d e : Document} (hd : IsWord d) (he : IsAmount e)
    (hsame : amount? d = amount? e) : key .integers d = key .mixed e := by
  cases hd with
  | integer => exact ((key_mixed_eq_toString_iff he _).mpr hsame.symm).symm
  | null =>
    rcases he.missing_or_finite with ⟨-, hkey, -⟩ | ⟨x, b, rfl, hx⟩
    · exact hkey.symm
    · rw [amount?_finite hx] at hsame
      cases hsame

section Rows

/-- Do filters keep the same rows of a table whichever of two columns is in it? -/
def SameRows (c c' : Column) : Prop :=
  ∀ (f : RowFilter) (before after : List Column) (available : List String),
    f.rows (before ++ c :: after) available = f.rows (before ++ c' :: after) available

variable {c c' : Column}

/-- The positions of the rows that a filter keeps by their keys. -/
def kept (f : RowFilter) (c : Column) : List ℕ :=
  ((List.range c.values.length).zip c.keys).filterMap fun p =>
    if f.keeps p.2 then some p.1 else none

theorem rows_singleton {f : RowFilter} (h : c.name = f.column) : f.rows [c] [] = .ok (kept f c) := by
  simp only [RowFilter.rows, List.find?_cons, h, beq_self_eq_true, kept]

theorem mem_kept_iff (f : RowFilter) (c : Column) (i : ℕ) :
    i ∈ kept f c ↔ ∃ k, c.keys[i]? = some k ∧ f.keeps k := by
  rw [kept, List.mem_filterMap]
  constructor
  · rintro ⟨⟨j, k⟩, hmem, hkept⟩
    obtain ⟨l, hl⟩ := List.mem_iff_getElem?.mp hmem
    obtain ⟨hrange, hkey⟩ := List.getElem?_zip_eq_some.mp hl
    obtain ⟨hlt, rfl⟩ := List.getElem?_eq_some_iff.mp hrange
    split_ifs at hkept with hkeeps
    rw [List.getElem_range] at hkept
    obtain rfl := Option.some.inj hkept
    exact ⟨k, hkey, hkeeps⟩
  · rintro ⟨k, hkey, hkeeps⟩
    have hlt : i < c.values.length := by
      have hlt := (List.getElem?_eq_some_iff.mp hkey).1
      rwa [keys, List.length_map] at hlt
    exact ⟨(i, k), List.mem_iff_getElem?.mpr ⟨i, List.getElem?_zip_eq_some.mpr
      ⟨List.getElem?_range hlt, hkey⟩⟩, if_pos hkeeps⟩

theorem keeps_single (name key : String) (k : Option String) :
    (RowFilter.mk name true [key]).keeps k ↔ k = some key := by
  cases k <;> simp [RowFilter.keeps]

/-- Filters see the keys of a column, and all of them. -/
theorem sameRows_iff (hname : c.name = c'.name) (hlength : c.values.length = c'.values.length) :
    SameRows c c' ↔ c.keys = c'.keys := by
  constructor
  · intro hsame
    have hkey : ∀ (i : ℕ) (k : String), c.keys[i]? = some (some k) ↔ c'.keys[i]? = some (some k) := by
      intro i k
      have hrows := hsame ⟨c.name, true, [k]⟩ [] [] []
      rw [List.nil_append, List.nil_append, rows_singleton rfl, rows_singleton hname.symm] at hrows
      have hmem : i ∈ kept ⟨c.name, true, [k]⟩ c ↔ i ∈ kept ⟨c.name, true, [k]⟩ c' := by
        rw [Except.ok.inj hrows]
      simpa only [mem_kept_iff, keeps_single, exists_eq_right] using hmem
    apply List.ext_getElem
    · rw [keys, keys, List.length_map, List.length_map, hlength]
    · intro i hi hi'
      have hiff := hkey i
      simp only [List.getElem?_eq_getElem hi, List.getElem?_eq_getElem hi', Option.some_inj] at hiff
      exact Option.ext hiff
  · intro hkeys f before after available
    simp only [RowFilter.rows, List.find?_append, List.find?_cons, hname]
    cases before.find? fun c => c.name == f.column with
    | some found => rfl
    | none =>
      rw [Option.none_or, Option.none_or]
      cases c'.name == f.column with
      | true => simp only [hlength, hkeys]
      | false => rfl

end Rows

section Storages

variable {ds is : List Document}

theorem keys_doubles_eq_iff (name : String) (hds : ∀ d ∈ ds, IsAmount d) :
    (⟨name, .doubles, ds⟩ : Column).keys = (⟨name, .mixed, ds⟩ : Column).keys ↔
      ∀ x b, .number x ∈ ds → ofFloat? x = some b →
        isNearlyWhole x (floatOfInt (nearestInteger b)) →
          ∃ n : ℤ, b.value = n ∧ -(2 ^ 63) ≤ n ∧ n < 2 ^ 63 := by
  rw [keys, keys, List.map_inj_left]
  constructor
  · intro hkeys x b hx hb
    exact (key_doubles_eq_iff hb).mp (hkeys _ hx)
  · intro hall d hd
    rcases (hds d hd).missing_or_finite with ⟨hdoubles, hmixed, -⟩ | ⟨x, b, rfl, hb⟩
    · exact hdoubles.trans hmixed.symm
    · exact (key_doubles_eq_iff hb).mpr (hall x b hd hb)

theorem keys?_integers (name : String) (his : ∀ d ∈ is, IsWord d) :
    keys? ⟨name, .integers, is⟩ = some (⟨name, .integers, is⟩ : Column).keys := by
  rw [keys?]
  refine if_pos (List.all_eq_true.mpr fun d hd => ?_)
  cases his d hd with
  | null => rfl
  | integer hlow hhigh => simpa using ⟨hlow, hhigh⟩

/-- Integers have the keys of the same numbers that are kept as they are. -/
theorem keys_integers_eq (name : String) (hds : ∀ d ∈ ds, IsAmount d) (his : ∀ d ∈ is, IsWord d)
    (hsame : is.map amount? = ds.map amount?) :
    (⟨name, .integers, is⟩ : Column).keys = (⟨name, .mixed, ds⟩ : Column).keys := by
  rw [keys, keys]
  dsimp only
  induction is generalizing ds with
  | nil =>
    obtain rfl : ds = [] := List.map_eq_nil_iff.mp hsame.symm
    rfl
  | cons d is ih =>
    cases ds with
    | nil => cases hsame
    | cons e ds =>
      obtain ⟨hhead, htail⟩ := List.cons.inj hsame
      rw [List.map_cons, List.map_cons,
        key_integers_eq (his d List.mem_cons_self) (hds e List.mem_cons_self) hhead,
        ih (fun d hd => hds d (List.mem_cons_of_mem e hd))
          (fun d' hd => his d' (List.mem_cons_of_mem d hd)) htail]

/-- Integers of 64 bits are not taken for others. -/
theorem keys_doubles_eq_of_integers (name : String) (hds : ∀ d ∈ ds, IsAmount d)
    (his : ∀ d ∈ is, IsWord d) (hsame : is.map amount? = ds.map amount?) :
    (⟨name, .doubles, ds⟩ : Column).keys = (⟨name, .mixed, ds⟩ : Column).keys := by
  refine (keys_doubles_eq_iff name hds).mpr fun x b hx hb _ => ?_
  have hmem : some b.value ∈ is.map amount? := by
    rw [hsame]
    exact List.mem_map.mpr ⟨_, hx, amount?_finite hb⟩
  obtain ⟨d, hd, hvalue⟩ := List.mem_map.mp hmem
  cases his d hd with
  | null => cases hvalue
  | integer hlow hhigh => exact ⟨_, (Option.some.inj hvalue).symm, hlow, hhigh⟩

/-- Whether numbers are stored as doubles or kept as they are makes no difference to their keys, nor
to the rows that are kept by them, exactly if no number is taken for a whole number that it is not
or that is of more than 64 bits. Integers of 64 bits may be stored as such as well. Doubles have
the digits of an integer as key if they are near to a whole number; numbers that are kept as they
are, if they are whole, and they have one key only if they are one number. -/
theorem storages_agree_iff (name : String) (hds : ∀ d ∈ ds, IsAmount d) :
    ((⟨name, .doubles, ds⟩ : Column).keys = (⟨name, .mixed, ds⟩ : Column).keys ↔
      ∀ x b, .number x ∈ ds → ofFloat? x = some b →
        isNearlyWhole x (floatOfInt (nearestInteger b)) →
          ∃ n : ℤ, b.value = n ∧ -(2 ^ 63) ≤ n ∧ n < 2 ^ 63) ∧
    (SameRows ⟨name, .doubles, ds⟩ ⟨name, .mixed, ds⟩ ↔
      (⟨name, .doubles, ds⟩ : Column).keys = (⟨name, .mixed, ds⟩ : Column).keys) ∧
    (∀ is : List Document, (∀ d ∈ is, IsWord d) → is.map amount? = ds.map amount? →
      keys? ⟨name, .integers, is⟩ = some (⟨name, .mixed, ds⟩ : Column).keys ∧
      (⟨name, .doubles, ds⟩ : Column).keys = (⟨name, .mixed, ds⟩ : Column).keys ∧
      SameRows ⟨name, .integers, is⟩ ⟨name, .mixed, ds⟩) ∧
    (∀ x b, .number x ∈ ds → ofFloat? x = some b →
      ((∃ n : ℤ, key .doubles (.number x) = some (toString n)) ↔
        isNearlyWhole x (floatOfInt (nearestInteger b)))) ∧
    (∀ d ∈ ds, ∀ n : ℤ, key .mixed d = some (toString n) ↔ amount? d = some (n : ℚ)) ∧
    (∀ d ∈ ds, ∀ e ∈ ds, key .mixed d = key .mixed e ↔ amount? d = amount? e) := by
  refine ⟨keys_doubles_eq_iff name hds, sameRows_iff rfl rfl, ?_, ?_, ?_, ?_⟩
  · intro is his hsame
    have hkeys := keys_integers_eq name hds his hsame
    have hlength : is.length = ds.length := by simpa using congrArg List.length hsame
    refine ⟨?_, keys_doubles_eq_of_integers name hds his hsame, ?_⟩
    · rw [keys?_integers name his, hkeys]
    · refine (sameRows_iff ?_ ?_).mpr hkeys
      · rfl
      · exact hlength
  · exact fun x b _ hb => exists_key_doubles_eq_toString_iff hb
  · exact fun d hd n => key_mixed_eq_toString_iff (hds d hd) n
  · exact fun d hd e he => key_mixed_eq_iff (hds d hd) (hds e he)

theorem sameRows_fraction_missing :
    SameRows ⟨"FIPS", .doubles, [.number 6037.0, .number 1.5, .null]⟩
      ⟨"FIPS", .mixed, [.number 6037.0, .number 1.5, .null]⟩ := by
  have hwhole : ofFloat? 6037.0 = some ⟨6637751696883712, -40⟩ := by decide +kernel
  have hfraction : ofFloat? 1.5 = some ⟨6755399441055744, -52⟩ := by decide +kernel
  have hds : ∀ d ∈ [Document.number 6037.0, .number 1.5, .null], IsAmount d := by
    simpa using ⟨IsAmount.finite hwhole, IsAmount.finite hfraction, IsAmount.null⟩
  obtain ⟨hkeys, hrows, -⟩ := storages_agree_iff "FIPS" hds
  refine hrows.mpr (hkeys.mpr fun x b hx hb hnear => ?_)
  have hcases : x = 6037.0 ∨ x = 1.5 := by simpa using hx
  rcases hcases with rfl | rfl
  · obtain rfl := Option.some.inj (hwhole.symm.trans hb)
    exact ⟨6037, by norm_num [value], by norm_num, by norm_num⟩
  · obtain rfl := Option.some.inj (hfraction.symm.trans hb)
    exact absurd hnear (by decide +kernel)

/-- A half far from zero is near to a whole number, and whole numbers beyond 64 bits are not told
apart. -/
theorem nearly_whole_key_differs :
    (⟨"POP", .doubles, [.number 100000.5]⟩ : Column).keys = [some "100000"] ∧
    (⟨"POP", .mixed, [.number 100000.5]⟩ : Column).keys = [some "100000.5"] ∧
    (RowFilter.mk "POP" true ["100000"]).rows [⟨"POP", .doubles, [.number 100000.5]⟩] [] =
      .ok [0] ∧
    (RowFilter.mk "POP" true ["100000"]).rows [⟨"POP", .mixed, [.number 100000.5]⟩] [] = .ok [] ∧
    key .doubles (.number 1e19) = key .doubles (.number 2e19) := by
  decide +kernel

end Storages

end Column

end Gridding
