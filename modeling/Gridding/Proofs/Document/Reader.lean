import Gridding.Document.Reader
import Mathlib

/-!
# What follows a document

Reading stops where a document ends: what is read of a text is read of every longer text as well,
except that a number needs a character after it that cannot go on with it. So an object that is read
of a whole text can be followed by blanks only.
-/

namespace Gridding.Document

section Spans

variable {cs : List Char}

theorem skipSpace_append (h : skipSpace cs ≠ []) (x : List Char) :
    skipSpace (cs ++ x) = skipSpace cs ++ x := by
  rw [skipSpace, List.dropWhile_append]
  exact if_neg (mt List.isEmpty_iff.mp h)

theorem takeDigits_append (h : (Reading.takeDigits cs).2 ≠ []) (x : List Char) :
    Reading.takeDigits (cs ++ x) = ((Reading.takeDigits cs).1, (Reading.takeDigits cs).2 ++ x) := by
  have hdrop : cs.dropWhile (·.isDigit) ≠ [] := h
  have hlength : (cs.takeWhile (·.isDigit)).length ≠ cs.length := by
    intro heq
    have hsplit : cs.takeWhile (·.isDigit) ++ cs.dropWhile (·.isDigit) = cs :=
      List.takeWhile_append_dropWhile
    have hsum := congrArg List.length hsplit
    rw [List.length_append] at hsum
    exact hdrop (List.eq_nil_of_length_eq_zero (by omega))
  rw [Reading.takeDigits, List.takeWhile_append, List.dropWhile_append, if_neg hlength,
    if_neg (mt List.isEmpty_iff.mp hdrop)]
  rfl

end Spans

/-! ## Numbers -/

/-- The blanks and what may end an item. -/
def breaks : List Char := [' ', '\t', '\n', '\r', ',', ']', '}']

/-- What starts so is not part of a number before it. -/
def Breaks (cs : List Char) : Prop := ∃ c rest, cs = c :: rest ∧ c ∈ breaks

section Numbers

variable {cs rest ds : List Char} {d : Document} {n : ℤ}

theorem Breaks.ne_nil (h : Breaks cs) : cs ≠ [] := by
  obtain ⟨c, rest, rfl, -⟩ := h
  exact List.cons_ne_nil c rest

theorem Breaks.head?_ne {c : Char} (h : Breaks cs) (hc : c ∉ breaks) : cs.head? ≠ some c := by
  obtain ⟨c, rest, rfl, hmem⟩ := h
  rintro ⟨⟩
  exact hc hmem

theorem wholeDigits_zero (cs : List Char) : wholeDigits ('0' :: cs) = (['0'], cs) := by
  have htake : Reading.takeDigits ('0' :: cs) =
      ('0' :: (Reading.takeDigits cs).1, (Reading.takeDigits cs).2) := rfl
  rw [wholeDigits, htake]
  exact congrArg (['0'], ·) List.takeWhile_append_dropWhile

theorem wholeDigits_of_ne {c : Char} (h : c ≠ '0') (cs : List Char) :
    wholeDigits (c :: cs) = Reading.takeDigits (c :: cs) := by
  rw [wholeDigits]
  split
  case h_1 more rest htake =>
    have hdigits : (c :: cs).takeWhile (·.isDigit) = '0' :: more := congrArg Prod.fst htake
    rw [List.takeWhile_cons] at hdigits
    split at hdigits
    · exact absurd (List.cons.inj hdigits).1 h
    · cases hdigits
  case h_2 htake => exact htake.symm

theorem wholeDigits_append (h : wholeDigits cs = (ds, rest)) (hrest : rest ≠ []) (x : List Char) :
    wholeDigits (cs ++ x) = (ds, rest ++ x) := by
  cases cs with
  | nil => exact absurd (congrArg Prod.snd h).symm hrest
  | cons c cs =>
    rcases eq_or_ne c '0' with rfl | hc
    · rw [wholeDigits_zero] at h
      obtain ⟨rfl, rfl⟩ := Prod.mk.inj h
      exact wholeDigits_zero _
    · rw [wholeDigits_of_ne hc] at h
      rw [List.cons_append, wholeDigits_of_ne hc, ← List.cons_append,
        takeDigits_append (by rwa [h]), h]

theorem places_of_ne {c : Char} (h : c ≠ '.') (cs : List Char) :
    places (c :: cs) = ([], c :: cs) := by
  rw [places.eq_def]
  split
  case h_1 heq => exact absurd (List.cons.inj heq).1 h
  case h_2 => rfl

theorem places_append (h : places cs = (ds, rest)) (hrest : rest ≠ [])
    (hpoint : rest.head? ≠ some '.') (x : List Char) : places (cs ++ x) = (ds, rest ++ x) := by
  cases cs with
  | nil => exact absurd (congrArg Prod.snd h).symm hrest
  | cons c cs =>
    rcases eq_or_ne c '.' with rfl | hc
    · rw [List.cons_append]
      simp only [places] at h ⊢
      split at h
      case isTrue =>
        obtain ⟨-, rfl⟩ := Prod.mk.inj h
        exact absurd rfl hpoint
      case isFalse hdigits =>
        obtain ⟨rfl, rfl⟩ := Prod.mk.inj h
        rw [takeDigits_append hrest, if_neg hdigits]
    · rw [places_of_ne hc] at h
      obtain ⟨rfl, rfl⟩ := Prod.mk.inj h
      exact places_of_ne hc _

theorem splitSign_append (h : cs ≠ []) (x : List Char) :
    Reading.splitSign (cs ++ x) =
      ((Reading.splitSign cs).1, (Reading.splitSign cs).2 ++ x) := by
  cases cs with
  | nil => exact absurd rfl h
  | cons c cs =>
    rw [List.cons_append, Reading.splitSign.eq_def, Reading.splitSign.eq_def]
    split <;> simp_all

theorem exponent_append {e : Option ℤ} (h : exponent cs = (e, rest)) (hrest : Breaks rest)
    (x : List Char) : exponent (cs ++ x) = (e, rest ++ x) := by
  cases cs with
  | nil => exact absurd (congrArg Prod.snd h).symm hrest.ne_nil
  | cons c more =>
    rw [List.cons_append]
    simp only [exponent] at h ⊢
    split at h
    case isFalse hmark =>
      obtain ⟨rfl, rfl⟩ := Prod.mk.inj h
      rw [if_neg hmark, List.cons_append]
    case isTrue hmark =>
      split at h
      case isTrue =>
        obtain ⟨rfl, rfl⟩ := Prod.mk.inj h
        rw [Bool.or_eq_true, beq_iff_eq, beq_iff_eq] at hmark
        rcases hmark with rfl | rfl
        · exact absurd rfl (hrest.head?_ne (c := 'e') (by decide))
        · exact absurd rfl (hrest.head?_ne (c := 'E') (by decide))
      case isFalse hdigits =>
        have hmore : more ≠ [] := by
          rintro rfl
          exact hdigits rfl
        obtain ⟨rfl, rfl⟩ := Prod.mk.inj h
        rw [if_pos hmark, splitSign_append hmore, takeDigits_append hrest.ne_nil, if_neg hdigits]

/-- What comes after the places of a number does not start with a point. -/
theorem head_of_exponent {e : Option ℤ} (h : exponent cs = (e, rest)) (hrest : Breaks rest) :
    cs ≠ [] ∧ cs.head? ≠ some '.' := by
  cases cs with
  | nil => exact absurd (congrArg Prod.snd h).symm hrest.ne_nil
  | cons c more =>
    refine ⟨List.cons_ne_nil c more, ?_⟩
    rintro ⟨⟩
    obtain ⟨rfl, rfl⟩ := Prod.mk.inj h
    exact hrest.head?_ne (by decide) rfl

theorem number?_append {negative : Bool} (h : number? negative cs = some (d, rest))
    (hrest : Breaks rest) (x : List Char) : number? negative (cs ++ x) = some (d, rest ++ x) := by
  rcases hwhole : wholeDigits cs with ⟨whole, afterWhole⟩
  rcases hplaces : places afterWhole with ⟨ds, afterPlaces⟩
  rcases hexponent : exponent afterPlaces with ⟨e, left⟩
  simp only [number?, hwhole, hplaces, hexponent] at h
  split at h
  case isTrue => cases h
  case isFalse hempty =>
    obtain ⟨_, hnumber, heq⟩ := Option.map_eq_some_iff.mp h
    obtain ⟨rfl, rfl⟩ := Prod.mk.inj heq
    obtain ⟨hne, hpoint⟩ := head_of_exponent hexponent hrest
    have hne' : afterWhole ≠ [] := by
      rintro rfl
      exact hne (congrArg Prod.snd hplaces).symm
    simp only [number?, wholeDigits_append hwhole hne', places_append hplaces hne hpoint,
      exponent_append hexponent hrest, if_neg hempty, hnumber]
    rfl

theorem number?_ne_object {negative : Bool} {ms : List (String × Document)} :
    number? negative cs ≠ some (.object ms, rest) := by
  intro h
  simp only [number?] at h
  split at h
  case isTrue => cases h
  case isFalse =>
    obtain ⟨d, hnumber, heq⟩ := Option.map_eq_some_iff.mp h
    obtain ⟨rfl, -⟩ := Prod.mk.inj heq
    simp only [numberOf?] at hnumber
    split_ifs at hnumber <;> cases hnumber

theorem number?_nil (negative : Bool) : number? negative [] = none := rfl

theorem number?_cons {c : Char} (h : c.isDigit = false) (negative : Bool) (cs : List Char) :
    number? negative (c :: cs) = none := by
  have htake : Reading.takeDigits (c :: cs) = ([], c :: cs) := by simp [Reading.takeDigits, h]
  have hwhole : wholeDigits (c :: cs) = ([], c :: cs) := by rw [wholeDigits, htake]
  simp only [number?, hwhole, List.isEmpty_nil, if_true]

end Numbers

/-! ## Words and texts -/

section Words

variable {cs rest : List Char} {d : Document} {fuel : ℕ}

def words : List (List Char) := literals.map (·.1)

/-- A text that starts with two words would have one that starts with the other. -/
theorem words_pairwise : words.Pairwise fun w l => ¬ l <+: w := by decide

theorem literal?_eq_none_iff : literal? cs = none ↔ ∀ w ∈ words, ¬ w <+: cs := by
  simp [literal?, words]

theorem find?_isPrefixOf_append {α : Type} {ws : List (List Char × α)} {found : List Char × α}
    (hws : (ws.map (·.1)).Pairwise fun w l => ¬ l <+: w)
    (h : ws.find? (fun w => w.1.isPrefixOf cs) = some found) (x : List Char) :
    ws.find? (fun w => w.1.isPrefixOf (cs ++ x)) = some found := by
  obtain ⟨hfound, before, after, rfl, hbefore⟩ := List.find?_eq_some_iff_append.mp h
  have hstart := List.isPrefixOf_iff_prefix.mp hfound
  refine List.find?_eq_some_iff_append.mpr ⟨?_, before, after, rfl, fun w hw => ?_⟩
  · exact List.isPrefixOf_iff_prefix.mpr (hstart.trans (List.prefix_append cs x))
  · rw [Bool.not_eq_true', Bool.eq_false_iff]
    intro hlonger
    rcases List.prefix_or_prefix_of_prefix (List.isPrefixOf_iff_prefix.mp hlonger)
      (List.prefix_append cs x) with hle | hle
    · have hfalse := hbefore w hw
      rw [List.isPrefixOf_iff_prefix.mpr hle] at hfalse
      cases hfalse
    · rw [List.map_append, List.pairwise_append] at hws
      exact hws.2.2 w.1 (List.mem_map_of_mem hw) found.1 (by simp) (hstart.trans hle)

theorem literal?_append (h : literal? cs = some (d, rest)) (x : List Char) :
    literal? (cs ++ x) = some (d, rest ++ x) := by
  obtain ⟨found, hfound, heq⟩ := Option.map_eq_some_iff.mp h
  obtain ⟨rfl, rfl⟩ := Prod.mk.inj heq
  have hstart : found.1 <+: cs := List.isPrefixOf_iff_prefix.mp (List.find?_some hfound : _)
  rw [literal?, find?_isPrefixOf_append words_pairwise hfound, Option.map_some,
    List.drop_append_of_le_length hstart.length_le]

theorem exists_of_mem_words {w : List Char} (h : w ∈ words) : ∃ c more, w = c :: more ∧
    (c ∈ ['n', 't', 'f', 'N', 'I'] ∨ c = '-' ∧ ∃ more', more = 'I' :: more') := by
  simp only [words, literals, List.map, List.mem_cons, List.not_mem_nil, or_false] at h
  rcases h with rfl | rfl | rfl | rfl | rfl | rfl
  · exact ⟨_, _, rfl, .inl (by decide)⟩
  · exact ⟨_, _, rfl, .inl (by decide)⟩
  · exact ⟨_, _, rfl, .inl (by decide)⟩
  · exact ⟨_, _, rfl, .inl (by decide)⟩
  · exact ⟨_, _, rfl, .inl (by decide)⟩
  · exact ⟨_, _, rfl, .inr ⟨rfl, _, rfl⟩⟩

/-- What is read of a text that does not start with a word. -/
def afterWords (fuel : ℕ) (cs : List Char) : Option (Document × List Char) :=
  match cs with
  | '"' :: rest => (textRest (rest.length + 1) [] rest).map fun (s, rest) => (.text s, rest)
  | '[' :: rest => (bracketed ']' (itemsAt fuel) rest).map fun (ds, rest) => (.list ds, rest)
  | '{' :: rest =>
    (bracketed '}' (membersAt fuel []) rest).map fun (ms, rest) => (.object ms, rest)
  | '-' :: rest => number? true rest
  | _ => number? false cs

theorem value_succ (h : literal? cs = none) : value (fuel + 1) cs = afterWords fuel cs := by
  rw [value.eq_def]
  simp only [h]
  rfl

/-- The start of a word cannot be read as anything else. -/
theorem value_eq_none_of_word {w : List Char} (hw : w ∈ words) (h : cs <+: w)
    (hcs : literal? cs = none) : value fuel cs = none := by
  cases fuel with
  | zero => rw [value]
  | succ fuel =>
    rw [value_succ hcs]
    obtain ⟨c, more, rfl, hc⟩ := exists_of_mem_words hw
    obtain rfl | ⟨cs, rfl, hmore⟩ := List.prefix_cons_iff.mp h
    · exact number?_nil false
    rcases hc with hc | ⟨rfl, more, rfl⟩
    · simp only [List.mem_cons, List.not_mem_nil, or_false] at hc
      have hdigit : c.isDigit = false := by rcases hc with rfl | rfl | rfl | rfl | rfl <;> rfl
      have hnone := number?_cons hdigit false cs
      rcases hc with rfl | rfl | rfl | rfl | rfl <;> exact hnone
    · obtain rfl | ⟨cs, rfl, -⟩ := List.prefix_cons_iff.mp hmore
      · exact number?_nil true
      · exact (number?_cons (by decide) true cs : number? true ('I' :: cs) = none)

/-- What is read and is no word is still none when the text goes on. -/
theorem literal?_append_eq_none {found : Document × List Char} (h : literal? cs = none)
    (hvalue : value fuel cs = some found) (x : List Char) : literal? (cs ++ x) = none := by
  refine literal?_eq_none_iff.mpr fun w hw hstart => ?_
  rcases List.prefix_or_prefix_of_prefix hstart (List.prefix_append cs x) with hle | hle
  · exact literal?_eq_none_iff.mp h w hw hle
  · rw [value_eq_none_of_word hw hle h] at hvalue
    cases hvalue

end Words

section Texts

variable {cs rest done : List Char} {s : String} {n fuel fuel' : ℕ}

theorem unit?_append (h : unit? cs = some (n, rest)) (x : List Char) :
    unit? (cs ++ x) = some (n, rest ++ x) := by
  match cs with
  | [] | [_] | [_, _] | [_, _, _] => cases h
  | a :: b :: c :: d :: more =>
    simp only [unit?, List.cons_append, bind, Option.bind_eq_some_iff, pure, Option.some.injEq,
      Prod.mk.injEq] at h ⊢
    obtain ⟨a, ha, b, hb, c, hc, d, hd, rfl, rfl⟩ := h
    exact ⟨a, ha, b, hb, c, hc, d, hd, rfl, rfl⟩

/-- Half a pair turns out to be a whole one at most if the text stops after it or after the next
backslash. -/
theorem codePoint?_append (h : codePoint? cs = some (n, rest)) (hnil : rest ≠ [])
    (hslash : rest ≠ ['\\']) (x : List Char) : codePoint? (cs ++ x) = some (n, rest ++ x) := by
  rw [codePoint?] at h ⊢
  obtain ⟨⟨high, more⟩, hunit, h⟩ := Option.bind_eq_some_iff.mp h
  rw [unit?_append hunit]
  simp only [bind, Option.bind_some] at h ⊢
  split_ifs at h ⊢ with hplain hhigh
  · obtain ⟨rfl, rfl⟩ := Prod.mk.inj (Option.some.inj h)
    rfl
  · split at h
    case h_1 more =>
      split at h
      case h_1 low rest' hlow =>
        simp only [List.cons_append, unit?_append hlow]
        split_ifs at h ⊢ with hpair <;> obtain ⟨rfl, rfl⟩ := Prod.mk.inj (Option.some.inj h) <;> rfl
      case h_2 => cases h
    case h_2 hother =>
      obtain ⟨rfl, rfl⟩ := Prod.mk.inj (Option.some.inj h)
      split
      case h_1 later heq =>
        match more with
        | [] => exact absurd rfl hnil
        | [a] => exact absurd (congrArg ([·]) (List.cons.inj heq).1) hslash
        | a :: b :: more =>
          obtain ⟨rfl, hb⟩ := List.cons.inj heq
          obtain ⟨rfl, -⟩ := List.cons.inj hb
          exact (hother more rfl).elim
      case h_2 => rfl
  · obtain ⟨rfl, rfl⟩ := Prod.mk.inj (Option.some.inj h)
    rfl

theorem textRest_nil : textRest fuel done [] = none := by
  cases fuel <;> rfl

theorem textRest_backslash : textRest fuel done ['\\'] = none := by
  cases fuel with
  | zero => rfl
  | succ fuel =>
    rw [textRest.eq_def]
    exact textRest_nil

theorem textRest_append (h : textRest fuel done cs = some (s, rest)) (hfuel : fuel ≤ fuel')
    (x : List Char) : textRest fuel' done (cs ++ x) = some (s, rest ++ x) := by
  induction fuel generalizing fuel' done cs with
  | zero => cases h
  | succ fuel ih =>
    obtain ⟨fuel', rfl⟩ : ∃ k, fuel' = k + 1 := ⟨fuel' - 1, by omega⟩
    have hle : fuel ≤ fuel' := by omega
    rw [textRest.eq_def] at h ⊢
    simp only at h ⊢
    split at h
    case h_1 => cases h
    case h_2 rest =>
      obtain ⟨rfl, rfl⟩ := Prod.mk.inj (Option.some.inj h)
      rfl
    case h_3 more =>
      split at h
      case h_1 n after hcode =>
        have hnil : after ≠ [] := by
          rintro rfl
          cases h.symm.trans textRest_nil
        have hslash : after ≠ ['\\'] := by
          rintro rfl
          cases h.symm.trans textRest_backslash
        simp only [List.cons_append, codePoint?_append hcode hnil hslash]
        exact ih h hle
      case h_2 => cases h
    case h_4 c more hne =>
      split at h
      case h_1 p hplain =>
        simp only [List.cons_append, hplain]
        exact ih h hle
      case h_2 => cases h
    case h_5 c more hquote hunit hescape =>
      split at h
      case isTrue => cases h
      case isFalse hcode =>
        have hslash : c ≠ '\\' := by
          intro hc
          cases more with
          | nil => cases h.symm.trans textRest_nil
          | cons c' more => exact hescape c' more hc rfl
        rw [List.cons_append]
        split
        case h_1 heq => cases heq
        case h_2 heq => exact (hquote (List.cons.inj heq).1).elim
        case h_3 heq => exact absurd (List.cons.inj heq).1 hslash
        case h_4 heq => exact absurd (List.cons.inj heq).1 hslash
        case h_5 heq =>
          obtain ⟨rfl, rfl⟩ := List.cons.inj heq
          rw [if_neg hcode]
          exact ih h hle

end Texts

/-! ## Documents -/

/-- What is read with some fuel is read of a longer text with at least as much fuel. -/
structure Extends (fuel : ℕ) : Prop where
  value : ∀ {cs rest d}, Document.value fuel cs = some (d, rest) →
    (Breaks rest ∨ ∃ ms, d = .object ms) → ∀ {fuel'}, fuel ≤ fuel' → ∀ x,
      Document.value fuel' (cs ++ x) = some (d, rest ++ x)
  items : ∀ {cs rest ds}, itemsAt fuel cs = some (ds, rest) → ∀ {fuel'}, fuel ≤ fuel' → ∀ x,
    itemsAt fuel' (cs ++ x) = some (ds, rest ++ x)
  members : ∀ {cs rest done ms}, membersAt fuel done cs = some (ms, rest) →
    ∀ {fuel'}, fuel ≤ fuel' → ∀ x, membersAt fuel' done (cs ++ x) = some (ms, rest ++ x)

section Documents

variable {cs rest : List Char} {d : Document} {fuel fuel' : ℕ}

theorem value_nil : value fuel [] = none := by
  cases fuel with
  | zero => rw [value]
  | succ fuel => rw [value_succ rfl]; rfl

/-- What comes before a blank or the end of an item is found by skipping blanks. -/
theorem breaks_of_skipSpace {c : Char} (h : skipSpace cs = c :: rest) (hc : c ∈ breaks) :
    Breaks cs := by
  cases cs with
  | nil => cases h
  | cons c' cs =>
    rw [skipSpace, List.dropWhile_cons] at h
    split at h
    case isTrue hspace =>
      simp only [isSpace, Bool.or_eq_true, beq_iff_eq] at hspace
      refine ⟨c', cs, rfl, ?_⟩
      rcases hspace with ((rfl | rfl) | rfl) | rfl <;> decide
    case isFalse => exact ⟨c', cs, rfl, (List.cons.inj h).1 ▸ hc⟩

theorem bracketed_append {α : Type} {close : Char} {as : List α}
    {read read' : List Char → Option (List α × List Char)}
    (hread : ∀ {cs rest as}, read cs = some (as, rest) →
      ∀ x, read' (cs ++ x) = some (as, rest ++ x))
    (h : bracketed close read cs = some (as, rest)) (x : List Char) :
    bracketed close read' (cs ++ x) = some (as, rest ++ x) := by
  rw [bracketed] at h ⊢
  cases hskip : skipSpace cs with
  | nil =>
    rw [hskip] at h
    cases h
  | cons c left =>
    rw [skipSpace_append (by rw [hskip]; exact List.cons_ne_nil c left), hskip]
    rw [hskip] at h
    simp only [List.cons_append] at h ⊢
    split at h
    case isTrue hclose =>
      obtain ⟨rfl, rfl⟩ := Prod.mk.inj (Option.some.inj h)
      rw [if_pos hclose]
    case isFalse hopen =>
      rw [if_neg hopen]
      exact hread h x

theorem afterWords_append (ih : Extends fuel) (h : afterWords fuel cs = some (d, rest))
    (hrest : Breaks rest ∨ ∃ ms, d = .object ms) (hfuel : fuel ≤ fuel') (x : List Char) :
    afterWords fuel' (cs ++ x) = some (d, rest ++ x) := by
  have hnumber : ∀ {negative cs}, number? negative cs = some (d, rest) →
      number? negative (cs ++ x) = some (d, rest ++ x) := fun h =>
    number?_append h (hrest.resolve_right fun ⟨ms, hms⟩ => number?_ne_object (hms ▸ h)) x
  rw [afterWords.eq_def] at h
  split at h
  case h_1 more =>
    obtain ⟨⟨s, left⟩, htext, heq⟩ := Option.map_eq_some_iff.mp h
    obtain ⟨rfl, rfl⟩ := Prod.mk.inj heq
    change (textRest ((more ++ x).length + 1) [] (more ++ x)).map _ = _
    rw [textRest_append htext (by simp)]
    rfl
  case h_2 more =>
    obtain ⟨⟨ds, left⟩, hitems, heq⟩ := Option.map_eq_some_iff.mp h
    obtain ⟨rfl, rfl⟩ := Prod.mk.inj heq
    change (bracketed ']' (itemsAt fuel') (more ++ x)).map _ = _
    rw [bracketed_append (fun h => ih.items h hfuel) hitems]
    rfl
  case h_3 more =>
    obtain ⟨⟨ms, left⟩, hmembers, heq⟩ := Option.map_eq_some_iff.mp h
    obtain ⟨rfl, rfl⟩ := Prod.mk.inj heq
    change (bracketed '}' (membersAt fuel' []) (more ++ x)).map _ = _
    rw [bracketed_append (fun h => ih.members h hfuel) hmembers]
    rfl
  case h_4 more => exact hnumber h
  case h_5 hquote hbracket hbrace hminus =>
    cases cs with
    | nil => cases h
    | cons c cs =>
      have hnext := hnumber h
      rw [afterWords.eq_def]
      split
      case h_1 heq => exact (hquote _ (congrArg (· :: cs) (List.cons.inj heq).1)).elim
      case h_2 heq => exact (hbracket _ (congrArg (· :: cs) (List.cons.inj heq).1)).elim
      case h_3 heq => exact (hbrace _ (congrArg (· :: cs) (List.cons.inj heq).1)).elim
      case h_4 heq => exact (hminus _ (congrArg (· :: cs) (List.cons.inj heq).1)).elim
      case h_5 => exact hnext

theorem value_append (ih : Extends fuel) (h : value (fuel + 1) cs = some (d, rest))
    (hrest : Breaks rest ∨ ∃ ms, d = .object ms) (hfuel : fuel ≤ fuel') (x : List Char) :
    value (fuel' + 1) (cs ++ x) = some (d, rest ++ x) := by
  cases hliteral : literal? cs with
  | some found =>
    rw [value.eq_def] at h ⊢
    simp only [hliteral] at h
    obtain rfl := Option.some.inj h
    simp only [literal?_append hliteral]
  | none =>
    rw [value_succ (literal?_append_eq_none hliteral h x)]
    rw [value_succ hliteral] at h
    exact afterWords_append ih h hrest hfuel x

theorem skipSpace_append_of_cons {c : Char} (h : skipSpace cs = c :: rest) (x : List Char) :
    skipSpace (cs ++ x) = c :: (rest ++ x) := by
  rw [skipSpace_append (by rw [h]; exact List.cons_ne_nil c rest), h, List.cons_append]

/-- A value inside of brackets is followed by a comma or by a closing bracket. -/
theorem Extends.value_skipSpace (ih : Extends fuel) {c : Char} {left later : List Char}
    (hvalue : Document.value fuel (skipSpace cs) = some (d, left))
    (hskip : skipSpace left = c :: later) (hc : c ∈ breaks) (hfuel : fuel ≤ fuel') (x : List Char) :
    Document.value fuel' (skipSpace (cs ++ x)) = some (d, left ++ x) := by
  have hne : skipSpace cs ≠ [] := by
    intro hnil
    rw [hnil, value_nil] at hvalue
    cases hvalue
  rw [skipSpace_append hne]
  exact ih.value hvalue (.inl (breaks_of_skipSpace hskip hc)) hfuel x

theorem itemsAt_append (ih : Extends fuel) {ds : List Document}
    (h : itemsAt (fuel + 1) cs = some (ds, rest)) (hfuel : fuel ≤ fuel') (x : List Char) :
    itemsAt (fuel' + 1) (cs ++ x) = some (ds, rest ++ x) := by
  rw [itemsAt] at h ⊢
  obtain ⟨⟨d, left⟩, hvalue, h⟩ := Option.bind_eq_some_iff.mp h
  simp only at h
  split at h
  case h_1 later hskip =>
    obtain ⟨rfl, rfl⟩ := Prod.mk.inj (Option.some.inj h)
    simp only [ih.value_skipSpace hvalue hskip (by decide) hfuel, bind, Option.bind_some,
      skipSpace_append_of_cons hskip]
    rfl
  case h_2 later hskip =>
    obtain ⟨⟨ds, left'⟩, hitems, h⟩ := Option.bind_eq_some_iff.mp h
    obtain ⟨rfl, rfl⟩ := Prod.mk.inj (Option.some.inj h)
    simp only [ih.value_skipSpace hvalue hskip (by decide) hfuel, bind, Option.bind_some,
      skipSpace_append_of_cons hskip, ih.items hitems hfuel]
    rfl
  case h_3 => cases h

theorem membersAt_append (ih : Extends fuel) {done ms : List (String × Document)}
    (h : membersAt (fuel + 1) done cs = some (ms, rest)) (hfuel : fuel ≤ fuel') (x : List Char) :
    membersAt (fuel' + 1) done (cs ++ x) = some (ms, rest ++ x) := by
  rw [membersAt] at h ⊢
  split at h
  case h_1 more hquote =>
    obtain ⟨⟨name, afterName⟩, hname, h⟩ := Option.bind_eq_some_iff.mp h
    simp only at h
    split at h
    case h_1 afterColon hcolon =>
      obtain ⟨⟨d, left⟩, hvalue, h⟩ := Option.bind_eq_some_iff.mp h
      have htext : textRest ((more ++ x).length + 1) [] (more ++ x) = some (name, afterName ++ x) :=
        textRest_append hname (by simp) x
      simp only at h
      split at h
      case h_1 later hskip =>
        obtain ⟨rfl, rfl⟩ := Prod.mk.inj (Option.some.inj h)
        simp only [skipSpace_append_of_cons hquote, htext, skipSpace_append_of_cons hcolon,
          ih.value_skipSpace hvalue hskip (by decide) hfuel, bind, Option.bind_some,
          skipSpace_append_of_cons hskip]
        rfl
      case h_2 later hskip =>
        simp only [skipSpace_append_of_cons hquote, htext, skipSpace_append_of_cons hcolon,
          ih.value_skipSpace hvalue hskip (by decide) hfuel, bind, Option.bind_some,
          skipSpace_append_of_cons hskip]
        exact ih.members h hfuel x
      case h_3 => cases h
    case h_2 => cases h
  case h_2 => cases h

/-- What is read is read of every longer text. -/
theorem extends_all (fuel : ℕ) : Extends fuel := by
  induction fuel with
  | zero =>
    refine ⟨fun h => ?_, fun h => ?_, fun h => ?_⟩
    · rw [value] at h
      cases h
    · rw [itemsAt] at h
      cases h
    · rw [membersAt] at h
      cases h
  | succ fuel ih =>
    refine ⟨fun h hrest fuel' hfuel x => ?_, fun h fuel' hfuel x => ?_, fun h fuel' hfuel x => ?_⟩
    all_goals obtain ⟨fuel', rfl⟩ : ∃ k, fuel' = k + 1 := ⟨fuel' - 1, by omega⟩
    · exact value_append ih h hrest (by omega) x
    · exact itemsAt_append ih h (by omega) x
    · exact membersAt_append ih h (by omega) x

/-- An object that is read of a whole text can be followed by blanks only. -/
theorem read?_append {s : String} {ms : List (String × Document)}
    (h : read? s = some (.object ms)) (t : String) :
    read? (s ++ t) = if (skipSpace t.toList).isEmpty then some (.object ms) else none := by
  simp only [read?] at h
  split at h
  case h_2 => cases h
  case h_1 d rest hvalue =>
    split at h
    case isFalse => cases h
    case isTrue hblank =>
      obtain rfl := Option.some.inj h
      have hne : skipSpace s.toList ≠ [] := by
        intro hnil
        rw [hnil, value_nil] at hvalue
        cases hvalue
      have hlonger : value ((s ++ t).toList.length + 1) (skipSpace (s ++ t).toList) =
          some (.object ms, rest ++ t.toList) := by
        rw [String.toList_append, skipSpace_append hne]
        exact (extends_all _).value hvalue (.inr ⟨ms, rfl⟩) (by simp) _
      have hrest : skipSpace (rest ++ t.toList) = skipSpace t.toList := by
        rw [skipSpace, List.dropWhile_append]
        exact if_pos hblank
      simp only [read?, hlonger, hrest]

end Documents

end Gridding.Document
