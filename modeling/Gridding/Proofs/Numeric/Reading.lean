import Gridding.Grid.Description
import Gridding.Proofs.Text.Trimming

/-!
# Numerals

A numeral is a decimal number as it is written: a sign, digits, a point among or around them, and an
exponent, whose mark may be a `D`. Reading it gives the double nearest to the number it stands for.
-/

namespace Gridding

open Reading

/-- How the sign of a number is written. -/
inductive Sign where
  | absent
  | plus
  | minus
  deriving DecidableEq, Repr

namespace Sign

def text : Sign → List Char
  | absent => []
  | plus => ['+']
  | minus => ['-']

def isMinus : Sign → Bool
  | minus => true
  | _ => false

end Sign

structure Exponent where
  mark : Char
  sign : Sign
  digits : List Char
  isMark : mark ∈ ['e', 'E', 'd', 'D']
  isDigit : ∀ c ∈ digits, c.isDigit
  digits_ne : digits ≠ []

def Exponent.text (e : Exponent) : List Char := e.mark :: (e.sign.text ++ e.digits)

def Exponent.value (e : Exponent) : Int :=
  if e.sign.isMinus then -(naturalOfDigits e.digits : Int) else naturalOfDigits e.digits

structure Numeral where
  sign : Sign
  whole : List Char
  /-- What stands behind the point, if there is one. -/
  places : Option (List Char)
  exponent : Option Exponent
  isDigit : ∀ c ∈ whole ++ places.getD [], c.isDigit
  digits_ne : whole ++ places.getD [] ≠ []

namespace Numeral

variable (n : Numeral)

def point (places : Option (List Char)) : List Char := (places.map ('.' :: ·)).getD []

/-- What stands behind the digits. -/
def tail : List Char := (n.exponent.map (·.text)).getD []

def unsigned : List Char := n.whole ++ point n.places ++ n.tail

def text : List Char := n.sign.text ++ n.unsigned

/-- The double nearest to what the numeral stands for. -/
def value : Float :=
  floatOfDecimal n.sign.isMinus (naturalOfDigits (n.whole ++ n.places.getD []))
    ((n.exponent.map (·.value)).getD 0 - (n.places.getD []).length)

end Numeral

namespace Reading

/-! ## Characters -/

def IsNumeric (c : Char) : Prop := c.isDigit = true ∨ c ∈ ['+', '-', '.', 'e', 'E', 'd', 'D']

theorem toNat_of_isDigit {c : Char} (h : c.isDigit) : 48 ≤ c.toNat ∧ c.toNat ≤ 57 := by
  simpa [Char.isDigit, UInt32.le_iff_toNat_le] using h

/-- A property of the first characters holds of all that numerals are made of. -/
theorem IsNumeric.induct {P : Char → Prop}
    (h : ∀ n < 128, IsNumeric (Char.ofNat n) → P (Char.ofNat n)) {c : Char} (hc : IsNumeric c) :
    P c := by
  have hbound : c.toNat < 128 := by
    rcases hc with hdigit | hother
    · have := toNat_of_isDigit hdigit
      omega
    · revert hother
      simp only [List.mem_cons, List.not_mem_nil, or_false]
      rintro (rfl | rfl | rfl | rfl | rfl | rfl | rfl) <;> decide
  have hall := h c.toNat hbound
  rw [Char.ofNat_toNat] at hall
  exact hall hc

instance (c : Char) : Decidable (IsNumeric c) := inferInstanceAs (Decidable (_ ∨ _))

theorem IsNumeric.isBlank_eq {c : Char} (h : IsNumeric c) : Text.isBlank c = false :=
  h.induct (P := fun c => Text.isBlank c = false) (by decide)

theorem IsNumeric.isMargin_eq {c : Char} (h : IsNumeric c) : isMargin c = false := by
  rw [isMargin, h.isBlank_eq, Bool.false_and]

theorem IsNumeric.ne_underscore {c : Char} (h : IsNumeric c) : c ≠ '_' :=
  h.induct (P := (· ≠ '_')) (by decide)

/-- Digits of the plain script stay as they are. -/
theorem IsNumeric.plain_eq {c : Char} (h : IsNumeric c) : (match Text.digitValue? c with
    | some d => Char.ofNat (48 + d)
    | none => c) = c :=
  h.induct (P := fun c => (match Text.digitValue? c with
    | some d => Char.ofNat (48 + d)
    | none => c) = c) (by decide)

theorem plain_ofList {cs : List Char} (h : ∀ c ∈ cs, IsNumeric c) :
    plain (String.ofList cs) = cs := by
  have htrim : Text.trimBoth isMargin cs = cs :=
    (Text.IsTrim.of_forall fun c hc => (h c hc).isMargin_eq).trimBoth_eq
  rw [plain, String.toList_ofList, htrim]
  exact (List.map_congr_left fun c hc => (h c hc).plain_eq).trans (List.map_id cs)

theorem withoutUnderscores?_eq {cs : List Char} (h : ∀ c ∈ cs, c ≠ '_') :
    withoutUnderscores? cs = some cs := by
  have hgo : ∀ afterDigit, withoutUnderscores?.go afterDigit cs = some cs := by
    induction cs with
    | nil => exact fun _ => rfl
    | cons c cs ih =>
      intro afterDigit
      have hc := h c List.mem_cons_self
      have hrest := ih (fun d hd => h d (List.mem_cons_of_mem c hd)) c.isDigit
      unfold withoutUnderscores?.go
      split
      case h_1 heq => cases heq
      case h_2 heq => exact absurd (List.cons.inj heq).1 hc
      case h_3 heq => exact absurd (List.cons.inj heq).1 hc
      case h_4 heq =>
        obtain ⟨rfl, rfl⟩ := List.cons.inj heq
        rw [hrest]
        rfl
  exact hgo false

theorem splitSign_append (s : Sign) {cs : List Char} (h : ∀ c ∈ cs.head?, c ≠ '+' ∧ c ≠ '-') :
    splitSign (s.text ++ cs) = (s.isMinus, cs) := by
  cases s with
  | absent =>
    cases cs with
    | nil => rfl
    | cons c cs =>
      obtain ⟨hplus, hminus⟩ := h c rfl
      simp [Sign.text, Sign.isMinus, splitSign, hplus, hminus]
  | plus => rfl
  | minus => rfl

theorem takeDigits_append {ds cs : List Char} (hds : ∀ c ∈ ds, c.isDigit)
    (hcs : ∀ c ∈ cs.head?, c.isDigit = false) : takeDigits (ds ++ cs) = (ds, cs) := by
  have hrest : cs.takeWhile (·.isDigit) = [] := by
    cases cs with
    | nil => rfl
    | cons c cs => simp [hcs c rfl]
  rw [takeDigits, List.takeWhile_append_of_pos hds, List.dropWhile_append_of_pos hds, hrest,
    Text.dropWhile_eq_self_of_head hcs, List.append_nil]

theorem takeDigits_eq {ds : List Char} (hds : ∀ c ∈ ds, c.isDigit) : takeDigits ds = (ds, []) := by
  have hall : takeDigits (ds ++ []) = (ds, []) := takeDigits_append hds fun c hc => by cases hc
  rwa [List.append_nil] at hall

theorem ne_of_isDigit {c d : Char} (hc : c.isDigit) (hd : d.isDigit = false) : c ≠ d := by
  rintro rfl
  rw [hc] at hd
  cases hd

end Reading

theorem Sign.isNumeric_of_mem (s : Sign) {c : Char} (h : c ∈ s.text) : IsNumeric c := by
  right
  cases s <;> simp_all [text]

namespace Exponent

variable (e : Exponent)

theorem exponentOf_text (h : e.mark = 'e' ∨ e.mark = 'E') : exponentOf e.text = some e.value := by
  have hsign : splitSign (e.sign.text ++ e.digits) = (e.sign.isMinus, e.digits) := by
    refine splitSign_append e.sign fun c hc => ?_
    have hdigit := e.isDigit c (List.mem_of_mem_head? hc)
    exact ⟨ne_of_isDigit hdigit rfl, ne_of_isDigit hdigit rfl⟩
  have hsome : e.digits.isEmpty = false := List.isEmpty_eq_false_iff.mpr e.digits_ne
  have hmark : (e.mark == 'e' || e.mark == 'E') = true := by simpa using h
  simp only [exponentOf, text, hmark, if_true, hsign, takeDigits_eq e.isDigit, hsome]
  rfl

theorem isNumeric_of_mem {c : Char} (h : c ∈ e.text) : IsNumeric c := by
  rw [text, List.mem_cons, List.mem_append] at h
  rcases h with rfl | hsign | hdigit
  · have hmark := e.isMark
    right
    simp_all
  · exact e.sign.isNumeric_of_mem hsign
  · exact .inl (e.isDigit c hdigit)

end Exponent

namespace Numeral

variable (n : Numeral)

theorem mark_of_mem_head? (h : ∀ e ∈ n.exponent, e.mark = 'e' ∨ e.mark = 'E') :
    ∀ c ∈ n.tail.head?, c = 'e' ∨ c = 'E' := by
  rw [tail]
  cases he : n.exponent with
  | none => simp
  | some e => simpa [Exponent.text] using h e he

theorem exponentOf_tail (h : ∀ e ∈ n.exponent, e.mark = 'e' ∨ e.mark = 'E') :
    exponentOf n.tail = some ((n.exponent.map (·.value)).getD 0) := by
  rw [tail]
  cases he : n.exponent with
  | none => rfl
  | some e => exact e.exponentOf_text (h e he)

theorem decimal?_unsigned (h : ∀ e ∈ n.exponent, e.mark = 'e' ∨ e.mark = 'E') (negative : Bool) :
    decimal? negative n.unsigned = some
      (floatOfDecimal negative (naturalOfDigits (n.whole ++ n.places.getD []))
        ((n.exponent.map (·.value)).getD 0 - (n.places.getD []).length)) := by
  have htail := n.exponentOf_tail h
  have hmark := n.mark_of_mem_head? h
  have hnotDigit : ∀ c ∈ n.tail.head?, c.isDigit = false := by
    intro c hc
    rcases hmark c hc with rfl | rfl <;> rfl
  have hdigits := n.isDigit
  have hsome := n.digits_ne
  rw [unsigned, List.append_assoc]
  cases hplaces : n.places with
  | none =>
    rw [hplaces, Option.getD_none, List.append_nil] at hdigits hsome
    have hwhole : takeDigits (n.whole ++ n.tail) = (n.whole, n.tail) :=
      takeDigits_append hdigits hnotDigit
    have hgiven : n.whole.isEmpty = false := List.isEmpty_eq_false_iff.mpr hsome
    simp only [decimal?, point, Option.map_none, Option.getD_none, List.nil_append, hwhole]
    split
    case h_1 more hdot =>
      have hhead := hmark '.' (by rw [hdot]; rfl)
      simp at hhead
    case h_2 =>
      simp only [hgiven, htail, List.append_nil]
      rfl
  | some ds =>
    rw [hplaces, Option.getD_some] at hdigits hsome
    have hwhole : takeDigits (n.whole ++ ('.' :: (ds ++ n.tail))) =
        (n.whole, '.' :: (ds ++ n.tail)) :=
      takeDigits_append (fun c hc => hdigits c (List.mem_append_left _ hc)) (by simp)
    have hds : takeDigits (ds ++ n.tail) = (ds, n.tail) :=
      takeDigits_append (fun c hc => hdigits c (List.mem_append_right _ hc)) hnotDigit
    have hgiven : (n.whole.isEmpty && ds.isEmpty) = false := by
      simpa [Bool.and_eq_false_iff, or_iff_not_imp_left] using hsome
    simp only [decimal?, point, Option.map_some, Option.getD_some, List.cons_append, hwhole, hds,
      hgiven, htail]
    rfl

theorem isNumeric_of_mem {c : Char} (h : c ∈ n.text) : IsNumeric c := by
  rw [text, unsigned, List.mem_append, List.mem_append, List.mem_append] at h
  rcases h with hsign | (hwhole | hpoint) | htail
  · exact n.sign.isNumeric_of_mem hsign
  · exact .inl (n.isDigit c (List.mem_append_left _ hwhole))
  · cases hplaces : n.places with
    | none => simp [point, hplaces] at hpoint
    | some ds =>
      rw [point, hplaces, Option.map_some, Option.getD_some, List.mem_cons] at hpoint
      rcases hpoint with rfl | hdigit
      · exact .inr (by decide)
      · refine .inl (n.isDigit c (List.mem_append_right _ ?_))
        rwa [hplaces, Option.getD_some]
  · cases hexponent : n.exponent with
    | none => simp [tail, hexponent] at htail
    | some e =>
      rw [tail, hexponent, Option.map_some, Option.getD_some] at htail
      exact e.isNumeric_of_mem htail

/-- The first character behind the sign is a digit or the point. -/
theorem exists_unsigned_eq_cons : ∃ c rest, n.unsigned = c :: rest ∧ (c.isDigit ∨ c = '.') := by
  rw [unsigned]
  cases hwhole : n.whole with
  | cons c cs =>
    refine ⟨c, _, rfl, .inl (n.isDigit c ?_)⟩
    rw [hwhole]
    exact List.mem_cons_self
  | nil =>
    cases hplaces : n.places with
    | none =>
      have hsome := n.digits_ne
      rw [hwhole, hplaces] at hsome
      exact absurd rfl hsome
    | some ds => exact ⟨'.', _, rfl, .inr rfl⟩

theorem text_ne_nil : n.text ≠ [] := by
  obtain ⟨c, rest, hunsigned, -⟩ := n.exists_unsigned_eq_cons
  rw [text, hunsigned]
  exact List.append_ne_nil_of_right_ne_nil _ (List.cons_ne_nil c rest)

/-- A numeral is none of the words for numbers that have no digits. -/
theorem toLower_ne {w : String} (hw : w.toList.head? = some 'i' ∨ w.toList.head? = some 'n') :
    (String.ofList n.unsigned).toLower ≠ w := by
  obtain ⟨c, rest, hunsigned, hc⟩ := n.exists_unsigned_eq_cons
  have hnumeric : IsNumeric c := hc.imp_right fun hpoint => by rw [hpoint]; decide
  have hlower : c.isDigit ∨ c = '.' → c.toLower ≠ 'i' ∧ c.toLower ≠ 'n' :=
    hnumeric.induct (P := fun c => c.isDigit ∨ c = '.' → c.toLower ≠ 'i' ∧ c.toLower ≠ 'n')
      (by decide)
  have hchars : (String.ofList n.unsigned).toLower.toList = n.unsigned.map Char.toLower :=
    String.toList_map.trans (congrArg _ String.toList_ofList)
  rintro rfl
  rw [hchars, hunsigned] at hw
  simp [hlower hc] at hw

theorem readFloat?_text (h : ∀ e ∈ n.exponent, e.mark = 'e' ∨ e.mark = 'E') :
    readFloat? (String.ofList n.text) = some n.value := by
  have hsign : splitSign n.text = (n.sign.isMinus, n.unsigned) := by
    refine splitSign_append n.sign fun c hc => ?_
    obtain ⟨d, rest, hunsigned, hd⟩ := n.exists_unsigned_eq_cons
    rw [hunsigned] at hc
    obtain rfl : d = c := Option.some.inj hc
    rcases hd with hdigit | rfl
    · exact ⟨ne_of_isDigit hdigit rfl, ne_of_isDigit hdigit rfl⟩
    · decide
  have hmem : ∀ c ∈ n.unsigned, c ≠ '_' := fun c hc =>
    (n.isNumeric_of_mem (List.mem_append_right _ hc)).ne_underscore
  simp only [readFloat?, plain_ofList fun c => n.isNumeric_of_mem, hsign]
  split
  case h_1 hinf => exact absurd hinf (n.toLower_ne (.inl rfl))
  case h_2 hinf => exact absurd hinf (n.toLower_ne (.inl rfl))
  case h_3 hnan => exact absurd hnan (n.toLower_ne (.inr rfl))
  case h_4 =>
    rw [withoutUnderscores?_eq hmem]
    exact n.decimal?_unsigned h _

end Numeral

/-! ## Marks -/

/-- The usual mark for an exponent in the place of another one. -/
def usualMark (c : Char) : Char := if c == 'D' then 'E' else if c == 'd' then 'e' else c

theorem usualMark_of_isDigit {c : Char} (h : c.isDigit) : usualMark c = c := by
  have hupper : c ≠ 'D' := ne_of_isDigit h rfl
  have hlower : c ≠ 'd' := ne_of_isDigit h rfl
  simp [usualMark, hupper, hlower]

theorem map_usualMark {cs : List Char} (h : ∀ c ∈ cs, c.isDigit) : cs.map usualMark = cs :=
  (List.map_congr_left fun c hc => usualMark_of_isDigit (h c hc)).trans (List.map_id cs)

theorem Sign.map_usualMark (s : Sign) : s.text.map usualMark = s.text := by
  cases s <;> rfl

theorem Exponent.usualMark_mark (e : Exponent) :
    usualMark e.mark = 'e' ∨ usualMark e.mark = 'E' := by
  have hmark := e.isMark
  revert hmark
  simp only [List.mem_cons, List.not_mem_nil, or_false]
  rintro (h | h | h | h) <;> rw [h] <;> decide

def Exponent.usual (e : Exponent) : Exponent where
  mark := usualMark e.mark
  sign := e.sign
  digits := e.digits
  isMark := by rcases e.usualMark_mark with h | h <;> simp [h]
  isDigit := e.isDigit
  digits_ne := e.digits_ne

namespace Numeral

variable (n : Numeral)

def usual : Numeral := { n with exponent := n.exponent.map (·.usual) }

theorem text_usual : n.usual.text = n.text.map usualMark := by
  have hwhole : n.whole.map usualMark = n.whole :=
    map_usualMark fun c hc => n.isDigit c (List.mem_append_left _ hc)
  have hpoint : (point n.places).map usualMark = point n.places := by
    cases hplaces : n.places with
    | none => rfl
    | some ds =>
      have hds : ds.map usualMark = ds := map_usualMark fun c hc =>
        n.isDigit c (List.mem_append_right _ (by rwa [hplaces, Option.getD_some]))
      simp only [point, Option.map_some, Option.getD_some, List.map_cons, hds]
      rfl
  have htail : n.usual.tail = n.tail.map usualMark := by
    rw [tail, tail, usual]
    cases hexponent : n.exponent with
    | none => rfl
    | some e => simp [Exponent.text, Exponent.usual, e.sign.map_usualMark, map_usualMark e.isDigit]
  simp only [text, unsigned, List.map_append, n.sign.map_usualMark, hwhole, hpoint, htail]
  rfl

theorem value_usual : n.usual.value = n.value := by
  rw [value, value, usual, Option.map_map]
  rfl

theorem readNumber?_text : Description.readNumber? (String.ofList n.text) = some n.value := by
  have hmark : ∀ e ∈ n.usual.exponent, e.mark = 'e' ∨ e.mark = 'E' := by
    intro e he
    obtain ⟨e, -, rfl⟩ := Option.map_eq_some_iff.mp he
    exact e.usualMark_mark
  rw [Description.readNumber?, String.toList_ofList]
  exact (congrArg (fun cs => readFloat? (String.ofList cs)) n.text_usual.symm).trans
    ((n.usual.readFloat?_text hmark).trans (congrArg some n.value_usual))

end Numeral

end Gridding
