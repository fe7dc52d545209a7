import Gridding.Surrogate.Filter
import Gridding.Proofs.Text.Trimming

/-!
# Reading back the text of a filter

A text is cut at its first `!=`, or at its first `=` where it has no `!=`. The column and the values
lose the blanks around them, and the text of the filter puts them side by side. That text asks for
the filter it was written for, unless the column ends with `!` and its values are to be kept: the
`!` and the `=` after it are then read as one operator.
-/

namespace Gridding

namespace RowFilter

open Text

variable {a b cs : List Char} {f : RowFilter}

/-- Does `!=` stand somewhere in a text? -/
def HasUnequal (cs : List Char) : Prop := ['!', '='] <:+: cs

/-- The two parts of a text around the operator that is read in it: its first `=` if the values are
to be kept, for which the text must not have any `!=`, and else its first `!=`. -/
def Cuts : Bool → List Char → List Char × List Char → Prop
  | true, cs, p => ¬ HasUnequal cs ∧ cs = p.1 ++ '=' :: p.2 ∧ '=' ∉ p.1
  | false, cs, p => cs = p.1 ++ '!' :: '=' :: p.2 ∧ ¬ HasUnequal p.1

/-- The filters that some text asks for. -/
structure Readable (f : RowFilter) : Prop where
  column_ne : f.column.toList ≠ []
  column_trim : IsTrim isBlank f.column.toList
  column_unequal : ¬ HasUnequal f.column.toList
  column_equal : f.equal → '=' ∉ f.column.toList
  values_ne : f.values ≠ []
  value_trim : ∀ v ∈ f.values, IsTrim isBlank v.toList
  value_comma : ∀ v ∈ f.values, ',' ∉ v.toList
  value_unequal : f.equal → ∀ v ∈ f.values, ¬ HasUnequal v.toList

section Operators

theorem hasUnequal_cons {c : Char} :
    HasUnequal (c :: cs) ↔ (c = '!' ∧ cs.head? = some '=') ∨ HasUnequal cs := by
  rw [HasUnequal, List.infix_cons_iff, ← HasUnequal]
  cases cs <;> simp [List.cons_prefix_cons, eq_comm]

/-- An operator stands in one of two parts, or the end of the one and the start of the other make it
together. -/
theorem hasUnequal_append : HasUnequal (a ++ b) ↔
    HasUnequal a ∨ HasUnequal b ∨ (a.getLast? = some '!' ∧ b.head? = some '=') := by
  induction a with
  | nil => simp [HasUnequal]
  | cons c a ih =>
    rw [List.cons_append, hasUnequal_cons, hasUnequal_cons, ih]
    cases a with
    | nil => simp [HasUnequal, or_comm]
    | cons d a =>
      rw [List.getLast?_cons_cons, List.cons_append, List.head?_cons, List.head?_cons, or_assoc]

theorem HasUnequal.mono (h : HasUnequal a) (hab : a <:+: b) : HasUnequal b := h.trans hab

theorem not_hasUnequal_of_blank (h : ∀ c ∈ cs, isBlank c) : ¬ HasUnequal cs := by
  intro hop
  have hbang := h '!' (hop.mem (by simp))
  exact absurd hbang (by decide)

theorem not_hasUnequal_intercalate {parts : List (List Char)}
    (h : ∀ part ∈ parts, ¬ HasUnequal part) : ¬ HasUnequal ([','].intercalate parts) := by
  induction parts with
  | nil => simp [HasUnequal]
  | cons part parts ih =>
    obtain ⟨hpart, hparts⟩ := List.forall_mem_cons.mp h
    cases parts with
    | nil => rwa [List.intercalate_singleton]
    | cons next parts =>
      rw [List.intercalate_cons_cons, List.append_assoc, List.singleton_append, hasUnequal_append,
        hasUnequal_cons]
      simp [hpart, ih hparts]

theorem isInfix_intercalate {separator part : List Char} {parts : List (List Char)}
    (h : part ∈ parts) : part <:+: separator.intercalate parts := by
  induction parts with
  | nil => simp at h
  | cons first parts ih =>
    cases parts with
    | nil =>
      have hpart : part = first := List.mem_singleton.mp h
      rw [List.intercalate_singleton]
      exact hpart ▸ List.infix_rfl
    | cons next parts =>
      rw [List.intercalate_cons_cons, List.append_assoc]
      rcases List.mem_cons.mp h with rfl | h
      · exact (List.prefix_append _ _).isInfix
      · rw [← List.append_assoc]
        exact (ih h).trans (List.suffix_append _ _).isInfix

end Operators

section Cuts

theorem cutUnequal_cons {c : Char} (h : ¬ (c = '!' ∧ cs.head? = some '=')) :
    cutUnequal (c :: cs) = (cutUnequal cs).map fun p => (c :: p.1, p.2) := by
  rw [cutUnequal.eq_2]
  rintro rest rfl rfl
  exact h ⟨rfl, rfl⟩

theorem cutUnequal_append (h : ¬ HasUnequal a) : cutUnequal (a ++ '!' :: '=' :: b) = some (a, b) := by
  induction a with
  | nil => rfl
  | cons c a ih =>
    rw [hasUnequal_cons, not_or] at h
    rw [List.cons_append, cutUnequal_cons, ih h.2, Option.map_some]
    rintro ⟨rfl, hhead⟩
    cases a with
    | nil => simp at hhead
    | cons d a => exact h.1 ⟨rfl, hhead⟩

theorem cutUnequal_eq_none_iff : cutUnequal cs = none ↔ ¬ HasUnequal cs := by
  fun_induction cutUnequal cs with
  | case1 rest => simp [hasUnequal_cons]
  | case2 c rest hne ih =>
    rw [Option.map_eq_none_iff, ih, hasUnequal_cons, not_or]
    refine ⟨fun h => ⟨?_, h⟩, And.right⟩
    rintro ⟨rfl, hrest⟩
    obtain ⟨rest', rfl⟩ := List.head?_eq_some_iff.mp hrest
    exact hne _ rfl rfl
  | case3 => simp [HasUnequal]

theorem cuts_of_cutUnequal {p : List Char × List Char} (h : cutUnequal cs = some p) :
    Cuts false cs p := by
  fun_induction cutUnequal cs generalizing p with
  | case1 rest =>
    obtain rfl := Option.some.inj h
    exact ⟨rfl, by simp [HasUnequal]⟩
  | case2 c rest hne ih =>
    obtain ⟨q, hq, rfl⟩ := Option.map_eq_some_iff.mp h
    obtain ⟨hrest, hbefore⟩ := ih hq
    refine ⟨congrArg (c :: ·) hrest, ?_⟩
    rw [hasUnequal_cons, not_or]
    refine ⟨?_, hbefore⟩
    rintro ⟨rfl, hhead⟩
    obtain ⟨before, hbefore⟩ := List.head?_eq_some_iff.mp hhead
    rw [hbefore] at hrest
    exact hne _ rfl hrest
  | case3 => cases h

theorem cutEqual_append (h : '=' ∉ a) : cutEqual (a ++ '=' :: b) = some (a, b) := by
  induction a with
  | nil => rfl
  | cons c a ih =>
    rw [List.mem_cons, not_or] at h
    rw [List.cons_append, cutEqual.eq_2 _ _ fun hc => h.1 hc.symm, ih h.2, Option.map_some]

theorem eq_append_of_cutEqual {p : List Char × List Char} (h : cutEqual cs = some p) :
    cs = p.1 ++ '=' :: p.2 ∧ '=' ∉ p.1 := by
  fun_induction cutEqual cs generalizing p with
  | case1 rest =>
    obtain rfl := Option.some.inj h
    exact ⟨rfl, List.not_mem_nil⟩
  | case2 c rest hne ih =>
    obtain ⟨q, hq, rfl⟩ := Option.map_eq_some_iff.mp h
    obtain ⟨hrest, hbefore⟩ := ih hq
    refine ⟨congrArg (c :: ·) hrest, ?_⟩
    rw [List.mem_cons, not_or]
    exact ⟨fun hc => hne hc.symm, hbefore⟩
  | case3 => cases h

theorem splitCommas_eq_splitOn (cs : List Char) : splitCommas cs = cs.splitOn ',' := by
  induction cs with
  | nil => rfl
  | cons c rest ih =>
    rw [splitCommas, ih, List.splitOn_cons_eq_if_modifyHead]
    obtain ⟨part, parts, hparts⟩ := List.exists_cons_of_ne_nil (List.splitOn_ne_nil ',' rest)
    rw [hparts]
    rfl

theorem not_mem_of_mem_splitOn {separator : Char} {part : List Char}
    (h : part ∈ cs.splitOn separator) : separator ∉ part := by
  induction cs generalizing part with
  | nil =>
    rw [List.splitOn_nil, List.mem_singleton] at h
    exact h ▸ List.not_mem_nil
  | cons c rest ih =>
    rw [List.splitOn_cons_eq_if_modifyHead] at h
    obtain ⟨first, parts, hparts⟩ := List.exists_cons_of_ne_nil (List.splitOn_ne_nil separator rest)
    rw [hparts] at h ih
    split at h
    case isTrue =>
      rcases List.mem_cons.mp h with rfl | h
      · exact List.not_mem_nil
      · exact ih h
    case isFalse hc =>
      rcases List.mem_cons.mp h with rfl | h
      · rw [List.mem_cons, not_or]
        exact ⟨fun hsep => hc (by simp [hsep]), ih List.mem_cons_self⟩
      · exact ih (List.mem_cons_of_mem _ h)

theorem isInfix_of_mem_splitOn {separator : Char} {part : List Char}
    (h : part ∈ cs.splitOn separator) : part <:+: cs := by
  have hjoined : part <:+: [separator].intercalate (cs.splitOn separator) := isInfix_intercalate h
  rwa [List.intercalate_splitOn] at hjoined

theorem Cuts.equal_mem {equal : Bool} {p : List Char × List Char} (h : Cuts equal cs p) :
    '=' ∈ cs := by
  cases equal with
  | false => simp [h.1]
  | true => simp [h.2.1]

theorem Cuts.not_hasUnequal_fst {equal : Bool} {p : List Char × List Char} (h : Cuts equal cs p) :
    ¬ HasUnequal p.1 := by
  cases equal with
  | false => exact h.2
  | true =>
    obtain ⟨hno, rfl, -⟩ := h
    exact fun hop => hno (hop.mono (List.prefix_append _ _).isInfix)

theorem Cuts.not_hasUnequal_snd {p : List Char × List Char} (h : Cuts true cs p) :
    ¬ HasUnequal p.2 := by
  obtain ⟨hno, rfl, -⟩ := h
  refine fun hop => hno (hop.mono ?_)
  exact (List.suffix_cons _ _).isInfix.trans (List.suffix_append _ _).isInfix

end Cuts

section Parse

/-- The filter that the two parts of a text around its operator ask for. -/
structure AskedBy (f : RowFilter) (p : List Char × List Char) : Prop where
  column_eq : f.column = String.ofList (trimmed p.1)
  column_ne : trimmed p.1 ≠ []
  values_eq : f.values = (p.2.splitOn ',').map fun v => String.ofList (trimmed v)

theorem ofParts_eq_ok_iff {equal : Bool} {p : List Char × List Char} {e : FilterError} :
    (if (trimmed p.1).isEmpty then .error e else
      .ok ⟨String.ofList (trimmed p.1), equal,
        (splitCommas p.2).map fun v => String.ofList (trimmed v)⟩) = Except.ok f ↔
      f.equal = equal ∧ f.AskedBy p := by
  rw [splitCommas_eq_splitOn]
  constructor
  · intro h
    split at h
    case isTrue => cases h
    case isFalse hne =>
      obtain rfl := Except.ok.inj h
      exact ⟨rfl, rfl, by simpa using hne, rfl⟩
  · rintro ⟨rfl, hcolumn, hne, hvalues⟩
    rw [if_neg (by simpa using hne), ← hcolumn, ← hvalues]

theorem ofTrimmed_eq_ok_iff : ofTrimmed cs = .ok f ↔ ∃ p, Cuts f.equal cs p ∧ f.AskedBy p := by
  simp only [ofTrimmed]
  constructor
  · intro h
    split at h
    case h_1 p hcut =>
      obtain ⟨hequal, hasked⟩ := ofParts_eq_ok_iff.mp h
      exact ⟨p, hequal ▸ cuts_of_cutUnequal hcut, hasked⟩
    case h_2 hnone =>
      split at h
      case h_1 p hcut =>
        obtain ⟨hequal, hasked⟩ := ofParts_eq_ok_iff.mp h
        exact ⟨p, hequal ▸ ⟨cutUnequal_eq_none_iff.mp hnone, eq_append_of_cutEqual hcut⟩, hasked⟩
      case h_2 => cases h
  · rintro ⟨p, hcuts, hasked⟩
    cases hequal : f.equal with
    | false =>
      rw [hequal] at hcuts
      obtain ⟨rfl, hbefore⟩ := hcuts
      rw [cutUnequal_append hbefore]
      exact ofParts_eq_ok_iff.mpr ⟨hequal, hasked⟩
    | true =>
      rw [hequal] at hcuts
      obtain ⟨hno, rfl, hbefore⟩ := hcuts
      rw [cutUnequal_eq_none_iff.mpr hno, cutEqual_append hbefore]
      exact ofParts_eq_ok_iff.mpr ⟨hequal, hasked⟩

/-- A text asks for a filter if the parts around its operator do. -/
theorem parse_eq_ok_some_iff {text : String} :
    parse text = .ok (some f) ↔ ∃ p, Cuts f.equal (trimmed text.toList) p ∧ f.AskedBy p := by
  rw [← ofTrimmed_eq_ok_iff]
  simp only [parse]
  split
  case isTrue hnone =>
    simp only [reduceCtorEq, Except.ok.injEq, false_iff]
    intro h
    obtain ⟨p, hcuts, -⟩ := ofTrimmed_eq_ok_iff.mp h
    rw [Bool.or_eq_true, List.isEmpty_iff, beq_iff_eq] at hnone
    rcases hnone with hempty | hnone
    · simpa [hempty] using hcuts.equal_mem
    · have hmem := hcuts.equal_mem
      rw [← String.toList_ofList (l := trimmed text.toList), hnone] at hmem
      exact absurd hmem (by decide)
  case isFalse => cases ofTrimmed (trimmed text.toList) <;> simp [Except.map]

theorem readable_of_parse {text : String} (h : parse text = .ok (some f)) : f.Readable := by
  obtain ⟨p, hcuts, hasked⟩ := parse_eq_ok_some_iff.mp h
  have hcolumn : f.column.toList = trimmed p.1 := by rw [hasked.column_eq, String.toList_ofList]
  have hvalue : ∀ v ∈ f.values, ∃ part ∈ p.2.splitOn ',', v.toList = trimmed part := by
    intro v hv
    rw [hasked.values_eq] at hv
    obtain ⟨part, hpart, rfl⟩ := List.mem_map.mp hv
    exact ⟨part, hpart, String.toList_ofList⟩
  exact {
    column_ne := hcolumn ▸ hasked.column_ne
    column_trim := hcolumn ▸ isTrim_trimBoth
    column_unequal := fun hop =>
      hcuts.not_hasUnequal_fst ((hcolumn ▸ hop : HasUnequal (trimmed p.1)).mono trimBoth_isInfix)
    column_equal := fun hequal hmem => by
      rw [hequal] at hcuts
      rw [hcolumn] at hmem
      exact hcuts.2.2 (mem_of_mem_trimBoth hmem)
    values_ne := by
      rw [hasked.values_eq, Ne, List.map_eq_nil_iff]
      exact List.splitOn_ne_nil _ _
    value_trim := fun v hv => by
      obtain ⟨part, -, hpart⟩ := hvalue v hv
      exact hpart ▸ isTrim_trimBoth
    value_comma := fun v hv hmem => by
      obtain ⟨part, hsplit, hpart⟩ := hvalue v hv
      rw [hpart] at hmem
      exact not_mem_of_mem_splitOn hsplit (mem_of_mem_trimBoth hmem)
    value_unequal := fun hequal v hv hop => by
      obtain ⟨part, hsplit, hpart⟩ := hvalue v hv
      rw [hequal] at hcuts
      rw [hpart] at hop
      exact hcuts.not_hasUnequal_snd
        ((hop.mono trimBoth_isInfix).mono (isInfix_of_mem_splitOn hsplit)) }

end Parse

section Written

/-- What stands between the column and the values of a filter. -/
def operator (equal : Bool) : List Char := if equal then ['='] else ['!', '=']

/-- A filter written with something after its column. -/
def written (f : RowFilter) (padding : List Char) : List Char :=
  f.column.toList ++ padding ++ (operator f.equal ++ [','].intercalate (f.values.map String.toList))

theorem toList_text (f : RowFilter) : f.text.toList = f.written [] := by
  rw [text, String.toList_append, String.toList_append, String.toList_intercalate, written, operator,
    List.append_nil, List.append_assoc]
  congr
  split <;> rfl

theorem Readable.trimmed_written (h : f.Readable) (padding : List Char) :
    trimmed (f.written padding) = f.written padding := by
  have hvalues : IsTrim isBlank ([','].intercalate (f.values.map String.toList)) :=
    isTrim_intercalate rfl (List.forall_mem_map.mpr h.value_trim)
  have hoperator : IsTrim isBlank (operator f.equal) := by
    cases f.equal
    · exact .of_forall (List.forall_mem_cons.mpr ⟨rfl, List.forall_mem_singleton.mpr rfl⟩)
    · exact .of_forall (List.forall_mem_singleton.mpr rfl)
  have hne : operator f.equal ++ [','].intercalate (f.values.map String.toList) ≠ [] := by
    cases f.equal <;> exact List.cons_ne_nil _ _
  exact (h.column_trim.append_append h.column_ne (hoperator.append hvalues) hne padding).trimBoth_eq

theorem Readable.askedBy (h : f.Readable) {padding : List Char} (hpadding : ∀ c ∈ padding, isBlank c) :
    f.AskedBy (f.column.toList ++ padding, [','].intercalate (f.values.map String.toList)) := by
  have hcolumn : trimmed (f.column.toList ++ padding) = f.column.toList :=
    trimBoth_append (List.forall_mem_nil _) hpadding h.column_trim
  refine ⟨by rw [hcolumn, String.ofList_toList], by rw [hcolumn]; exact h.column_ne, ?_⟩
  rw [List.splitOn_intercalate _ (List.forall_mem_map.mpr h.value_comma)
    (by simpa using h.values_ne), List.map_map]
  refine (List.map_id _).symm.trans (List.map_congr_left fun v hv => ?_)
  have hvalue : trimmed v.toList = v.toList := (h.value_trim v hv).trimBoth_eq
  rw [Function.comp_apply, hvalue, String.ofList_toList, id]

theorem Readable.cuts (h : f.Readable) {padding : List Char} (hpadding : ∀ c ∈ padding, isBlank c)
    (hapart : f.equal → (f.column.toList ++ padding).getLast? ≠ some '!') :
    Cuts f.equal (f.written padding)
      (f.column.toList ++ padding, [','].intercalate (f.values.map String.toList)) := by
  have hbefore : ¬ HasUnequal (f.column.toList ++ padding) := by
    rw [hasUnequal_append, not_or, not_or]
    refine ⟨h.column_unequal, not_hasUnequal_of_blank hpadding, ?_⟩
    rintro ⟨-, hhead⟩
    exact absurd (hpadding '=' (List.mem_of_mem_head? hhead)) (by decide)
  cases hequal : f.equal with
  | false => exact ⟨by rw [written, operator, hequal]; rfl, hbefore⟩
  | true =>
    have hvalues : ¬ HasUnequal ([','].intercalate (f.values.map String.toList)) :=
      not_hasUnequal_intercalate (List.forall_mem_map.mpr (h.value_unequal hequal))
    refine ⟨?_, by rw [written, operator, hequal]; rfl, ?_⟩
    · rw [written, operator, hequal, if_pos rfl, List.singleton_append, hasUnequal_append,
        hasUnequal_cons]
      rintro (hop | (⟨hbang, -⟩ | hop) | ⟨hlast, -⟩)
      · exact hbefore hop
      · exact absurd hbang (by decide)
      · exact hvalues hop
      · exact hapart hequal hlast
    · rw [List.mem_append, not_or]
      refine ⟨h.column_equal hequal, fun hmem => ?_⟩
      exact absurd (hpadding _ hmem) (by decide)

/-- A filter is read back from what is written, unless a `!` at the end of the column stands right
in front of the operator `=`. -/
theorem Readable.parse_written (h : f.Readable) {padding : List Char}
    (hpadding : ∀ c ∈ padding, isBlank c)
    (hapart : f.equal → (f.column.toList ++ padding).getLast? ≠ some '!') :
    parse (String.ofList (f.written padding)) = .ok (some f) := by
  rw [parse_eq_ok_some_iff, String.toList_ofList, h.trimmed_written]
  exact ⟨_, h.cuts hpadding hapart, h.askedBy hpadding⟩

/-- The filters that texts ask for are the readable ones. -/
theorem exists_parse_iff : (∃ text, parse text = .ok (some f)) ↔ f.Readable := by
  constructor
  · rintro ⟨text, h⟩
    exact readable_of_parse h
  · intro h
    have hblank : ∀ c ∈ [' '], isBlank c := List.forall_mem_singleton.mpr rfl
    refine ⟨_, h.parse_written hblank fun _ => ?_⟩
    rw [List.getLast?_concat]
    decide

/-- The text of a filter that was read asks for the same filter again, if and only if the values are
to be dropped or the column does not end with `!`. -/
theorem parse_text_iff {text : String} (h : parse text = .ok (some f)) :
    parse f.text = .ok (some f) ↔ (f.equal → f.column.toList.getLast? ≠ some '!') := by
  have hread := readable_of_parse h
  have hwritten : f.text = String.ofList (f.written []) := by
    rw [← toList_text, String.ofList_toList]
  rw [hwritten]
  constructor
  · intro hparse hequal hlast
    obtain ⟨p, hcuts, -⟩ := parse_eq_ok_some_iff.mp hparse
    rw [String.toList_ofList, hread.trimmed_written, hequal] at hcuts
    apply hcuts.1
    rw [written, operator, hequal, List.append_nil, hasUnequal_append]
    exact .inr (.inr ⟨hlast, rfl⟩)
  · intro hapart
    refine hread.parse_written (List.forall_mem_nil _) fun hequal => ?_
    rw [List.append_nil]
    exact hapart hequal

/-- A column that ends with `!` is read back if its values are to be dropped. -/
theorem parse_text_bang :
    parse " A! != b , c=d" = .ok (some ⟨"A!", false, ["b", "c=d"]⟩) ∧
      (parse (RowFilter.text ⟨"A!", false, ["b", "c=d"]⟩) =
          .ok (some ⟨"A!", false, ["b", "c=d"]⟩) ↔
        (false = true → "A!".toList.getLast? ≠ some '!')) := by
  have h : parse " A! != b , c=d" = .ok (some ⟨"A!", false, ["b", "c=d"]⟩) := by decide
  exact ⟨h, parse_text_iff h⟩

/-- Without the blank after its `!`, a column is another column, and its values are to be dropped. -/
theorem parse_text_merges :
    parse "A! =b" = .ok (some ⟨"A!", true, ["b"]⟩) ∧
      RowFilter.text ⟨"A!", true, ["b"]⟩ = "A!=b" ∧
      parse "A!=b" = .ok (some ⟨"A", false, ["b"]⟩) := by
  decide

end Written

end RowFilter

end Gridding
