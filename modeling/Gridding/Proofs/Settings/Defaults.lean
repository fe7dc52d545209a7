import Gridding.Proofs.Fallible
import Gridding.Proofs.Numeric.Overflow
import Gridding.Request.Layers

/-!
# What the defaults are resolved to

The variable goes before the settings, and what a setting cannot be read as is passed over. The
defaults are refused for two kinds of settings alone: an infinite number of workers, and a tolerance
that is an integer beyond the doubles. So a gridder is made unless there is one of these.
-/

namespace Gridding

namespace Binary

variable {b : Binary}

/-- A number without its places. -/
def wholePart (v : ℚ) : ℤ := if 0 ≤ v then ⌊v⌋ else ⌈v⌉

theorem truncate_eq_wholePart (b : Binary) : b.truncate = wholePart b.value := by
  have hpos : (0 : ℚ) < b.ratio.2 := by exact_mod_cast b.ratio_den_pos
  have hsign : 0 ≤ b.value ↔ 0 ≤ b.ratio.1 := by
    rw [value_eq_ratio, le_div_iff₀ hpos, zero_mul, Int.cast_nonneg_iff]
  rw [wholePart]
  simp only [hsign]
  rw [value_eq_ratio, Rat.floor_intCast_div_natCast, Rat.ceil_intCast_div_natCast]
  change b.ratio.1.tdiv b.ratio.2 = _
  split_ifs with hnonneg
  · exact Int.tdiv_eq_ediv_of_nonneg hnonneg
  · rw [← Int.tdiv_eq_ediv_of_nonneg (by omega), Int.neg_tdiv, neg_neg]

/-- Only numbers below one are rounded to zero. -/
theorem Canonical.pos {m : ℕ} {q : ℤ} {v : ℚ} (h : Canonical m q) (hv : RoundsTo m q v)
    (hone : 1 ≤ v) : 0 < m := by
  by_contra hm
  obtain rfl : m = 0 := by omega
  have hunit : (2 : ℚ) ^ q ≤ 2 ^ (0 : ℤ) :=
    zpow_le_zpow_right₀ one_le_two (by have := h.full.resolve_left (by omega); omega)
  have hhigh := hv.high
  rw [zpow_zero] at hunit
  push_cast at hhigh
  linarith

end Binary

namespace Document

/-- What documents are as integers. -/
inductive IsInteger : Document → ℤ → Prop
  | bool (b : Bool) : IsInteger (.bool b) b.toNat
  | integer (n : ℤ) : IsInteger (.integer n) n
  | number (x : Float) (b : Binary) (h : Binary.ofFloat? x = some b) :
    IsInteger (.number x) (Binary.wholePart b.value)
  | text (s : String) (n : ℤ) (h : readInteger? s = some n) : IsInteger (.text s) n

/-- What documents are as doubles. An integer is the nearest one. -/
inductive IsDouble : Document → Float → Prop
  | bool (b : Bool) : IsDouble (.bool b) (if b then 1.0 else 0.0)
  | zero : IsDouble (.integer 0) 0.0
  | integer (n : ℤ) (m : ℕ) (q : ℤ) (hn : n ≠ 0) (hcanonical : Binary.Canonical m q)
    (hrounds : Binary.RoundsTo m q n.natAbs) : IsDouble (.integer n) (Binary.ofParts (n < 0) m q)
  | number (x : Float) : IsDouble (.number x) x
  | text (s : String) (x : Float) (h : readFloat? s = some x) : IsDouble (.text s) x

end Document

namespace Defaults

open Document (IsInteger IsDouble)

section Readings

variable {x : Document} {n : ℤ} {t : Float}

theorem readWorkers_number {y : Float} {b : Binary} (h : Binary.ofFloat? y = some b) :
    readWorkers (.number y) = .value (Binary.wholePart b.value) := by
  simp only [readWorkers, integerPart?, h, Binary.truncate_eq_wholePart]

theorem readWorkers_of_ofFloat?_eq_none {y : Float} (h : Binary.ofFloat? y = none) :
    readWorkers (.number y) = if y.isInf then .outOfRange else .ignored := by
  rw [readWorkers, integerPart?, h, isInf_of_ofFloat?_eq_none h]
  cases y.isNaN <;> rfl

theorem readWorkers_eq_value_iff : readWorkers x = .value n ↔ x.IsInteger n := by
  constructor
  · intro h
    cases x with
    | null | list | object => cases h
    | bool b =>
      obtain rfl := Reading.value.inj h
      cases b
      · exact .bool false
      · exact .bool true
    | integer k =>
      obtain rfl := Reading.value.inj h
      exact .integer k
    | number y =>
      cases hb : Binary.ofFloat? y with
      | none =>
        rw [readWorkers_of_ofFloat?_eq_none hb] at h
        split at h <;> cases h
      | some b =>
        rw [readWorkers_number hb] at h
        obtain rfl := Reading.value.inj h
        exact .number y b hb
    | text s =>
      simp only [readWorkers] at h
      split at h
      case h_1 k hs =>
        obtain rfl := Reading.value.inj h
        exact .text s k hs
      case h_2 => cases h
  · rintro (b | n | ⟨y, b, hb⟩ | ⟨s, n, hs⟩)
    · cases b <;> rfl
    · rfl
    · exact readWorkers_number hb
    · simp only [readWorkers, hs]

theorem readWorkers_eq_outOfRange_iff : readWorkers x = .outOfRange ↔
    ∃ y, x = .number y ∧ y.isInf := by
  constructor
  · intro h
    cases x with
    | null | list | object | bool | integer => cases h
    | number y =>
      cases hb : Binary.ofFloat? y with
      | none =>
        rw [readWorkers_of_ofFloat?_eq_none hb] at h
        split at h
        case isTrue hinf => exact ⟨y, rfl, hinf⟩
        case isFalse => cases h
      | some b =>
        rw [readWorkers_number hb] at h
        cases h
    | text s =>
      simp only [readWorkers] at h
      split at h <;> cases h
  · rintro ⟨y, rfl, hinf⟩
    cases hb : Binary.ofFloat? y with
    | none => rw [readWorkers_of_ofFloat?_eq_none hb, if_pos hinf]
    | some b =>
      rw [isInf_eq_false hb] at hinf
      cases hinf

/-- Integers below the limit of doubles are those that have a nearest double. -/
theorem isDouble_integer_iff :
    IsDouble (.integer n) t ↔ n.natAbs < Binary.limit ∧ t = floatOfInt n := by
  constructor
  · intro h
    cases h with
    | zero => exact ⟨by norm_num [Binary.limit_eq], rfl⟩
    | integer _ m q hn hcanonical hrounds =>
      refine ⟨hrounds.lt_limit hcanonical.lt hcanonical.most, ?_⟩
      have hone : (1 : ℚ) ≤ n.natAbs := by exact_mod_cast Int.natAbs_pos.mpr hn
      have hround := Binary.roundRatio_eq (hcanonical.pos hrounds hone) hcanonical one_pos
        (by rwa [Nat.cast_one, div_one]) hn
      exact hround.symm
  · rintro ⟨hlt, rfl⟩
    rcases eq_or_ne n 0 with rfl | hn
    · exact .zero
    · obtain ⟨m, q, hcanonical, hrounds, heq⟩ := floatOfInt_of_lt hn hlt
      rw [heq]
      exact .integer n m q hn hcanonical hrounds

theorem readTolerance_integer (n : ℤ) : readTolerance (.integer n) =
    if (floatOfInt n).isInf then .outOfRange else .value (floatOfInt n) := rfl

theorem readTolerance_eq_value_iff (x : Document) (t : Float) :
    readTolerance x = .value t ↔ x.IsDouble t := by
  constructor
  · intro h
    cases x with
    | null | list | object => cases h
    | bool b =>
      obtain rfl := Reading.value.inj h
      exact .bool b
    | integer k =>
      rw [readTolerance_integer] at h
      split at h
      case isTrue => cases h
      case isFalse hfinite =>
        rw [isInf_floatOfInt_iff, not_le] at hfinite
        exact isDouble_integer_iff.mpr ⟨hfinite, (Reading.value.inj h).symm⟩
    | number y =>
      obtain rfl := Reading.value.inj h
      exact .number y
    | text s =>
      simp only [readTolerance] at h
      split at h
      case h_1 y hs =>
        obtain rfl := Reading.value.inj h
        exact .text s y hs
      case h_2 => cases h
  · intro h
    cases x with
    | null | list | object => cases h
    | bool b =>
      cases h
      rfl
    | integer k =>
      obtain ⟨hlt, rfl⟩ := isDouble_integer_iff.mp h
      rw [readTolerance_integer, if_neg (by rwa [isInf_floatOfInt_iff, not_le])]
    | number y =>
      cases h
      rfl
    | text s =>
      cases h with
      | text _ _ hs => simp only [readTolerance, hs]

theorem readTolerance_eq_outOfRange_iff : readTolerance x = .outOfRange ↔
    ∃ k : ℤ, x = .integer k ∧ Binary.limit ≤ k.natAbs := by
  constructor
  · intro h
    cases x with
    | null | list | object | bool | number => cases h
    | integer k =>
      rw [readTolerance_integer] at h
      split at h
      case isTrue hinf => exact ⟨k, rfl, (isInf_floatOfInt_iff k).mp hinf⟩
      case isFalse => cases h
    | text s =>
      simp only [readTolerance] at h
      split at h <;> cases h
  · rintro ⟨k, rfl, hle⟩
    rw [readTolerance_integer, if_pos ((isInf_floatOfInt_iff k).mpr hle)]

end Readings

/-- A setting is what its document is as something of a kind, or else a default. -/
structure IsSetting {α : Type} (kind : Document → α → Prop) (found : Option Document)
    (default a : α) : Prop where
  given : ∀ x v, found = some x → kind x v → a = v
  unset : (∀ x v, found = some x → ¬ kind x v) → a = default

section Setting

variable {α : Type} {kind : Document → α → Prop} {read : Document → Reading α}

/-- What comes of a setting whose document was read. -/
def Reading.settled (default : α) : Reading α → Except Refusal α
  | .value a => .ok a
  | .ignored => .ok default
  | .outOfRange => .error .outOfRange

theorem setting_of_some (hnull : read .null = .ignored) {settings : List (String × Document)}
    {name : String} {x : Document} (default : α)
    (h : (Document.object settings).member? name = some x) :
    setting read settings name default = (read x).settled default := by
  rw [setting, show (settings.find? _).map _ = some x from h]
  cases x with
  | null =>
    rw [hnull]
    rfl
  | _ => rfl

/-- A setting is refused if its document is out of range, and else it is what its document is read
as. -/
theorem setting_cases (hnull : read .null = .ignored)
    (hread : ∀ x v, read x = .value v ↔ kind x v) (settings : List (String × Document))
    (name : String) (default : α) :
    ((∃ x, (Document.object settings).member? name = some x ∧ read x = .outOfRange) ∧
      setting read settings name default = .error .outOfRange) ∨
    (¬ (∃ x, (Document.object settings).member? name = some x ∧ read x = .outOfRange) ∧
      ∃ a, setting read settings name default = .ok a ∧
        IsSetting kind ((Document.object settings).member? name) default a) := by
  cases hfound : (Document.object settings).member? name with
  | none =>
    have hsetting : setting read settings name default = .ok default := by
      rw [setting, show (settings.find? _).map _ = none from hfound]
    exact .inr ⟨by simp, default, hsetting, by simp, fun _ => rfl⟩
  | some x =>
    rw [setting_of_some hnull default hfound]
    cases hx : read x with
    | value a =>
      have hkind := (hread x a).mp hx
      refine .inr ⟨by simp [hx], a, rfl, ?_, fun hnone => absurd hkind (hnone x a rfl)⟩
      rintro _ v ⟨⟩ hv
      exact Reading.value.inj (hx.symm.trans ((hread x v).mpr hv))
    | ignored =>
      refine .inr ⟨by simp [hx], default, rfl, ?_, fun _ => rfl⟩
      rintro _ v ⟨⟩ hv
      cases hx.symm.trans ((hread x v).mpr hv)
    | outOfRange => exact .inl ⟨⟨x, rfl, hx⟩, rfl⟩

end Setting

/-- What the defaults are under settings and a value of the variable. -/
structure Resolves (settings : List (String × Document)) (workersVariable : Option String)
    (d : Defaults) : Prop where
  environment : ∀ n, Environment.integer? workersVariable = some n → d.workers = some n
  workers : Environment.integer? workersVariable = none →
    IsSetting (fun x w => ∃ n, x.IsInteger n ∧ w = some n)
      ((Document.object settings).member? "workers") none d.workers
  tolerance : IsSetting IsDouble ((Document.object settings).member? "simplify_tolerance") 0.0
    d.tolerance

/-- There is no integer for the workers, or no double for the tolerance, because the number is too
large. -/
def BeyondRange (settings : List (String × Document)) : Prop :=
  (∃ x, (Document.object settings).member? "workers" = some (.number x) ∧ x.isInf) ∨
    ∃ n : ℤ, (Document.object settings).member? "simplify_tolerance" = some (.integer n) ∧
      Binary.limit ≤ n.natAbs

/-- The number of workers that a document is read as, which may be unset. -/
def readWorkersSetting (x : Document) : Reading (Option ℤ) :=
  match readWorkers x with
  | .value n => .value (some n)
  | .ignored => .ignored
  | .outOfRange => .outOfRange

theorem readWorkersSetting_eq_value_iff (x : Document) (w : Option ℤ) :
    readWorkersSetting x = .value w ↔ ∃ n, x.IsInteger n ∧ w = some n := by
  simp only [← readWorkers_eq_value_iff, readWorkersSetting]
  cases readWorkers x with
  | value n => simp [eq_comm]
  | ignored => simp
  | outOfRange => simp

theorem readWorkersSetting_eq_outOfRange_iff (x : Document) :
    readWorkersSetting x = .outOfRange ↔ ∃ y, x = .number y ∧ y.isInf := by
  rw [← readWorkers_eq_outOfRange_iff, readWorkersSetting]
  cases readWorkers x <;> simp

theorem resolve_eq (settings : List (String × Document)) (workersVariable : Option String) :
    resolve settings workersVariable =
      (setting readWorkersSetting settings "workers" none >>= fun workers =>
        setting readTolerance settings "simplify_tolerance" 0.0 >>= fun tolerance =>
          .ok ⟨(Environment.integer? workersVariable).or workers, tolerance⟩) := rfl

theorem beyondRange_iff (settings : List (String × Document)) : BeyondRange settings ↔
    (∃ x, (Document.object settings).member? "workers" = some x ∧
      readWorkersSetting x = .outOfRange) ∨
    ∃ x, (Document.object settings).member? "simplify_tolerance" = some x ∧
      readTolerance x = .outOfRange := by
  simp only [BeyondRange, readWorkersSetting_eq_outOfRange_iff, readTolerance_eq_outOfRange_iff]
  aesop

theorem resolve_cases (settings : List (String × Document)) (workersVariable : Option String) :
    (BeyondRange settings ∧ resolve settings workersVariable = .error .outOfRange) ∨
    (¬ BeyondRange settings ∧
      ∃ d, resolve settings workersVariable = .ok d ∧ Resolves settings workersVariable d) := by
  rw [beyondRange_iff, resolve_eq]
  rcases setting_cases rfl readWorkersSetting_eq_value_iff settings "workers" none with
    ⟨hlarge, hworkers⟩ | ⟨hinRange, workers, hworkers, hisWorkers⟩
  · refine .inl ⟨.inl hlarge, ?_⟩
    rw [hworkers]
    rfl
  rcases setting_cases rfl readTolerance_eq_value_iff settings "simplify_tolerance" 0.0 with
    ⟨hlarge, htolerance⟩ | ⟨hinRange', tolerance, htolerance, hisTolerance⟩
  · refine .inl ⟨.inr hlarge, ?_⟩
    rw [hworkers, htolerance]
    rfl
  refine .inr ⟨not_or.mpr ⟨hinRange, hinRange'⟩,
    ⟨(Environment.integer? workersVariable).or workers, tolerance⟩, ?_, ?_, ?_, hisTolerance⟩
  · rw [hworkers, htolerance]
    rfl
  · intro n hn
    simp only [hn, Option.some_or]
  · intro hnone
    simpa only [hnone, Option.none_or] using hisWorkers

/-- A gridder is made, with the defaults that the variable and the settings say, unless a number is
too large. -/
theorem configured_cases (readFile : String → Option Layer) (grid : Grid Footprint Float)
    (o : GridderOptions) (settings : List (String × Document)) (workersVariable : Option String) :
    (BeyondRange settings ∧ resolve settings workersVariable = .error .outOfRange ∧
      LayerGridder.configured readFile grid o settings workersVariable = .error .outOfRange) ∨
    (¬ BeyondRange settings ∧ ∃ d, resolve settings workersVariable = .ok d ∧
      Resolves settings workersVariable d ∧
      LayerGridder.configured readFile grid o settings workersVariable =
        .ok (.new readFile grid o d)) := by
  rw [LayerGridder.configured]
  rcases resolve_cases settings workersVariable with
    ⟨hlarge, hrefused⟩ | ⟨hinRange, d, hd, hresolves⟩
  · rw [hrefused]
    exact .inl ⟨hlarge, rfl, rfl⟩
  · rw [hd]
    exact .inr ⟨hinRange, d, rfl, hresolves, rfl⟩

/-- An infinite number of workers is refused although the variable says how many there are, and so
is a large integer. -/
theorem resolve_too_large : Environment.integer? (some "4") = some 4 ∧
    resolve [("workers", .number (1.0 / 0.0))] (some "4") = .error .outOfRange ∧
    resolve [("simplify_tolerance", .integer (10 ^ 400))] (some "4") = .error .outOfRange := by
  have hinf : BeyondRange [("workers", .number (1.0 / 0.0))] :=
    .inl ⟨_, rfl, by decide +kernel⟩
  have hlarge : BeyondRange [("simplify_tolerance", .integer (10 ^ 400))] := by
    have hpower : 2 ^ 1024 ≤ (10 ^ 400 : ℤ).natAbs := by decide +kernel
    have hcast : (2 : ℚ) ^ 1024 ≤ (10 ^ 400 : ℤ).natAbs := by exact_mod_cast hpower
    exact .inr ⟨_, rfl, (sub_le_self _ (by positivity)).trans hcast⟩
  have hrefused : ∀ {settings}, BeyondRange settings →
      resolve settings (some "4") = .error .outOfRange := fun h =>
    (resolve_cases _ _).elim And.right fun hnot => absurd h hnot.1
  exact ⟨by decide +kernel, hrefused hinf, hrefused hlarge⟩

end Defaults

end Gridding
