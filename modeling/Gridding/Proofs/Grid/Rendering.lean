import Gridding.Proofs.Numeric.Reading
import Mathlib.Data.List.Chain
import Mathlib.Data.List.Forall2

/-!
# How grid descriptions are written

A name may have blanks around it, inside the quotes and outside, and every line may end with a
comment. The numbers of a coordinate system stand between blanks and commas, and the parts of a grid
line between commas. Each line is read as what it was written for.
-/

namespace Gridding.Description

open Text (isBlank IsTrim)

/-! ## Parts of lines -/

def Blank (cs : List Char) : Prop := ∀ c ∈ cs, isBlank c

/-- Nothing, or an exclamation mark and anything behind it. -/
def IsComment (cs : List Char) : Prop := ∀ c ∈ cs.head?, c = '!'

/-- A text that is written in a way, with blanks around it. -/
inductive Padded (P : List Char → Prop) : List Char → Prop where
  | intro {before cs after : List Char} (hbefore : Blank before) (h : P cs) (hafter : Blank after) :
    Padded P (before ++ cs ++ after)

/-- A line that is written in a way, up to a comment. -/
inductive Commented (P : List Char → Prop) : List Char → Prop where
  | intro {cs comment : List Char} (h : P cs) (hcomment : IsComment comment) :
    Commented P (cs ++ comment)

/-- Parts between separators; there may be more of these than needed. -/
inductive Separated (p : Char → Bool) : List (List Char) → List Char → Prop where
  | done {separators : List Char} (h : ∀ c ∈ separators, p c) : Separated p [] separators
  | part {separators cs rest : List Char} {parts : List (List Char)}
      (hseparators : ∀ c ∈ separators, p c) (hne : cs ≠ []) (hcs : ∀ c ∈ cs, p c = false)
      (hrest : Separated p parts rest) (hnext : ∀ c ∈ rest.head?, p c) :
    Separated p (cs :: parts) (separators ++ cs ++ rest)

/-- A name consists of words with single spaces between them and has no mark in it. -/
structure IsName (name : String) : Prop where
  ne : name.toList ≠ []
  unmarked : ∀ c ∈ name.toList, isQuoteMark c = false ∧ c ≠ '!'
  space : ∀ c ∈ name.toList, isBlank c → c = ' '
  single : name.toList.IsChain fun c d => ¬ (isBlank c ∧ isBlank d)
  trim : IsTrim isBlank name.toList

/-- A name in quotes. -/
inductive Quotes (name : String) : List Char → Prop where
  | intro {before after : List Char} (hbefore : Blank before) (hafter : Blank after) :
    Quotes name ('\'' :: (before ++ name.toList ++ after) ++ ['\''])

/-- A name as it may be referred to, in quotes or not. -/
def Names (name : String) (cs : List Char) : Prop := cs = name.toList ∨ Quotes name cs

/-- A number in any of its spellings. -/
def Spells (x : Float) (cs : List Char) : Prop := ∃ n : Numeral, cs = n.text ∧ n.value = x

/-! ## Lines -/

def IsFiller : List Char → Prop := Commented Blank

def IsNameLine (name : String) : List Char → Prop := Commented (Padded (Quotes name))

/-- A quote and nothing else but quotes and blanks. -/
def IsBlankName : List Char → Prop :=
  Commented fun cs => ∃ before rest, cs = before ++ '\'' :: rest ∧ Blank before ∧
    ∀ c ∈ rest, isQuoteMark c ∨ isBlank c

def isNumberSeparator (c : Char) : Bool := c == ',' || isBlank c

def IsSystemLine (numbers : List Float) : List Char → Prop :=
  Commented fun cs =>
    ∃ parts, Separated isNumberSeparator parts cs ∧ List.Forall₂ Spells numbers parts

def IsGridLine (entry : GridEntry) : List Char → Prop :=
  Commented fun cs =>
    ∃ first parts, Separated (· == ',') (first :: parts) cs ∧ Padded (Names entry.system) first ∧
      List.Forall₂ (fun x => Padded (Spells x)) entry.numbers parts

theorem Commented.of {P : List Char → Prop} {cs : List Char} (h : P cs) : Commented P cs := by
  have hempty : Commented P (cs ++ []) := .intro h fun c hc => by cases hc
  rwa [List.append_nil] at hempty

theorem Padded.of {P : List Char → Prop} {cs : List Char} (h : P cs) : Padded P cs := by
  have hempty : Padded P ([] ++ cs ++ []) :=
    .intro (List.forall_mem_nil _) h (List.forall_mem_nil _)
  rwa [List.nil_append, List.append_nil] at hempty

namespace Separated

variable {p : Char → Bool} {separator : Char}

theorem cons (hseparator : p separator) {parts : List (List Char)} {cs : List Char}
    (h : Separated p parts cs) : Separated p parts (separator :: cs) := by
  cases h with
  | done hseparators => exact .done (List.forall_mem_cons.mpr ⟨hseparator, hseparators⟩)
  | part hseparators hne hcs hrest hnext =>
    exact .part (List.forall_mem_cons.mpr ⟨hseparator, hseparators⟩) hne hcs hrest hnext

/-- Parts may be joined by single separators. -/
theorem intercalate (hseparator : p separator) {parts : List (List Char)}
    (h : ∀ part ∈ parts, part ≠ [] ∧ ∀ c ∈ part, p c = false) :
    Separated p parts ([separator].intercalate parts) := by
  induction parts with
  | nil => exact .done (List.forall_mem_nil _)
  | cons first others ih =>
    obtain ⟨⟨hne, hfirst⟩, hothers⟩ := List.forall_mem_cons.mp h
    cases others with
    | nil =>
      have hsingle : Separated p [first] ([] ++ first ++ []) :=
        .part (List.forall_mem_nil _) hne hfirst (.done (List.forall_mem_nil _))
          fun c hc => by cases hc
      simpa [List.intercalate] using hsingle
    | cons second others =>
      have hrest := (ih hothers).cons hseparator
      have hmore : Separated p (first :: second :: others)
          ([] ++ first ++ separator :: [separator].intercalate (second :: others)) := by
        refine .part (List.forall_mem_nil _) hne hfirst hrest ?_
        rintro c ⟨⟩
        exact hseparator
      simpa [List.intercalate] using hmore

end Separated

/-! ## Comments -/

/-- No exclamation mark stands in a text. -/
def Plain (cs : List Char) : Prop := ∀ c ∈ cs, c ≠ '!'

theorem Plain.append {cs ds : List Char} (h : Plain cs) (h' : Plain ds) : Plain (cs ++ ds) :=
  List.forall_mem_append.mpr ⟨h, h'⟩

theorem Blank.plain {cs : List Char} (h : Blank cs) : Plain cs := by
  rintro c hc rfl
  exact absurd (h _ hc) (by decide)

theorem withoutComment_append {cs comment : List Char} (h : Plain cs)
    (hcomment : IsComment comment) : withoutComment (cs ++ comment) = cs := by
  have hrest : comment.takeWhile (· != '!') = [] := by
    cases comment with
    | nil => rfl
    | cons c comment => simp [hcomment c rfl]
  have hkept : ∀ c ∈ cs, (c != '!') = true := fun c hc => by simpa using h c hc
  rw [withoutComment, List.takeWhile_append_of_pos hkept, hrest, List.append_nil]

/-! ## Names -/

section Squeeze

variable {c d : Char} {cs before after : List Char}

theorem squeeze_cons_of_not_blank (hc : isBlank c = false) :
    squeeze (c :: cs) = c :: squeeze cs := by
  cases cs <;> simp [squeeze, hc]

theorem squeeze_cons_of_blank (hc : isBlank c) (hnext : ∀ d ∈ cs.head?, isBlank d = false) :
    squeeze (c :: cs) = ' ' :: squeeze cs := by
  cases cs with
  | nil => simp [squeeze, hc]
  | cons d cs => simp [squeeze, hc, hnext d rfl]

theorem squeeze_cons_cons (hc : isBlank c) (hd : isBlank d) :
    squeeze (c :: d :: cs) = squeeze (d :: cs) := by
  simp [squeeze, hc, hd]

/-- Blanks in front of a text stay blanks. -/
theorem squeeze_blank_append (hbefore : Blank before) (hhead : ∀ c ∈ cs.head?, isBlank c = false) :
    ∃ ds, Blank ds ∧ squeeze (before ++ cs) = ds ++ squeeze cs := by
  induction before with
  | nil => exact ⟨[], List.forall_mem_nil _, rfl⟩
  | cons c before ih =>
    have hc := hbefore c List.mem_cons_self
    cases before with
    | nil => exact ⟨[' '], by simp [Blank, isBlank, Text.blanks], squeeze_cons_of_blank hc hhead⟩
    | cons d before =>
      have hd := hbefore d (List.mem_cons_of_mem _ List.mem_cons_self)
      rw [List.cons_append, List.cons_append, squeeze_cons_cons hc hd]
      exact ih fun c hc => hbefore c (List.mem_cons_of_mem _ hc)

/-- What has single spaces only is left as it is. -/
theorem squeeze_append (hspace : ∀ c ∈ cs, isBlank c → c = ' ')
    (hsingle : cs.IsChain fun c d => ¬ (isBlank c ∧ isBlank d))
    (hlast : ∀ c ∈ cs.getLast?, isBlank c = false) :
    squeeze (cs ++ after) = cs ++ squeeze after := by
  induction cs with
  | nil => rfl
  | cons c cs ih =>
    have hrest : squeeze (cs ++ after) = cs ++ squeeze after := by
      apply ih
      · exact fun d hd => hspace d (List.mem_cons_of_mem _ hd)
      · exact hsingle.of_cons
      · exact fun d hd => hlast d (List.mem_getLast?_cons hd)
    cases hc : isBlank c with
    | false => rw [List.cons_append, squeeze_cons_of_not_blank hc, hrest, List.cons_append]
    | true =>
      obtain rfl := hspace c List.mem_cons_self hc
      -- No other blank follows this one, and the text does not end with it.
      cases cs with
      | nil => simp [hc] at hlast
      | cons d cs =>
        have hd : isBlank d = false := by
          have hpair := (List.isChain_cons_cons.mp hsingle).1
          simpa [hc] using hpair
        have hnext : ∀ e ∈ (d :: cs ++ after).head?, isBlank e = false := by
          rintro e ⟨⟩
          exact hd
        rw [List.cons_append, squeeze_cons_of_blank hc hnext, hrest]
        rfl

end Squeeze

namespace IsName

variable {name : String} {before after : List Char}

theorem trimmed_squeeze (h : IsName name) (hbefore : Blank before) (hafter : Blank after) :
    trimmed (squeeze (before ++ name.toList ++ after)) = name.toList := by
  have hhead : ∀ c ∈ (name.toList ++ after).head?, isBlank c = false := by
    intro c hc
    rw [List.head?_append_of_ne_nil _ h.ne] at hc
    exact h.trim.head c hc
  obtain ⟨ds, hds, hfront⟩ := squeeze_blank_append hbefore hhead
  obtain ⟨es, hes, hback⟩ : ∃ es, Blank es ∧ squeeze (after ++ []) = es ++ squeeze [] :=
    squeeze_blank_append hafter (by simp)
  rw [List.append_nil, squeeze, List.append_nil] at hback
  rw [List.append_assoc, hfront, squeeze_append h.space h.single h.trim.last, hback,
    ← List.append_assoc]
  exact Text.trimBoth_append hds hes h.trim

theorem plain (h : IsName name) : Plain name.toList := fun c hc => (h.unmarked c hc).2

theorem filter_eq (h : IsName name) :
    name.toList.filter (fun c => !isQuoteMark c) = name.toList :=
  List.filter_eq_self.mpr fun c hc => by simp [(h.unmarked c hc).1]

end IsName

theorem isQuoteMark_of_isBlank {c : Char} (h : isBlank c) : isQuoteMark c = false := by
  cases hmark : isQuoteMark c with
  | false => rfl
  | true =>
    simp only [isQuoteMark, Bool.or_eq_true, beq_iff_eq] at hmark
    rcases hmark with (rfl | rfl) | rfl <;> exact absurd h (by decide)

theorem Blank.filter_eq {cs : List Char} (h : Blank cs) :
    cs.filter (fun c => !isQuoteMark c) = cs :=
  List.filter_eq_self.mpr fun c hc => by simp [isQuoteMark_of_isBlank (h c hc)]

theorem cleanChars_append {before cs after comment : List Char} (hbefore : Blank before)
    (hafter : Blank after) (hcomment : IsComment comment) (hplain : Plain cs)
    (htrim : IsTrim isBlank cs) : cleanChars (before ++ cs ++ after ++ comment) =
      trimmed (squeeze (cs.filter fun c => !isQuoteMark c)) := by
  rw [cleanChars,
    withoutComment_append ((hbefore.plain.append hplain).append hafter.plain) hcomment]
  exact congrArg _ (congrArg _ (congrArg _ (Text.trimBoth_append hbefore hafter htrim)))

section Names

variable {name : String} {cs : List Char}

theorem Quotes.isTrim (h : Quotes name cs) : IsTrim isBlank cs := by
  cases h with
  | intro hbefore hafter =>
    constructor
    · rintro c ⟨⟩
      rfl
    · intro c hc
      rw [List.getLast?_concat] at hc
      cases hc
      rfl

theorem Names.isTrim (hname : IsName name) (h : Names name cs) : IsTrim isBlank cs := by
  rcases h with rfl | h
  · exact hname.trim
  · exact h.isTrim

theorem Names.plain (hname : IsName name) (h : Names name cs) : Plain cs := by
  rcases h with rfl | h
  · exact hname.plain
  · cases h with
    | intro hbefore hafter =>
      have hquote : Plain ['\''] := by simp [Plain]
      exact (hquote.append ((hbefore.plain.append hname.plain).append hafter.plain)).append hquote

theorem Names.trimmed_squeeze_filter (hname : IsName name) (h : Names name cs) :
    trimmed (squeeze (cs.filter fun c => !isQuoteMark c)) = name.toList := by
  rcases h with rfl | h
  · have hbare := hname.trimmed_squeeze (List.forall_mem_nil _) (List.forall_mem_nil _)
    rw [hname.filter_eq]
    rwa [List.nil_append, List.append_nil] at hbare
  · cases h with
    | intro hbefore hafter =>
      have hquote (cs : List Char) : ('\'' :: cs).filter (fun c => !isQuoteMark c) =
          cs.filter fun c => !isQuoteMark c := rfl
      rw [List.filter_append, hquote, hquote, List.filter_append, List.filter_append,
        hbefore.filter_eq, hname.filter_eq, hafter.filter_eq, List.filter_nil, List.append_nil]
      exact hname.trimmed_squeeze hbefore hafter

/-- Around a name, quotes and blanks are cleaned away, and so is a comment. -/
theorem Names.cleanChars_eq (hname : IsName name) (h : Names name cs)
    {before after comment : List Char} (hbefore : Blank before) (hafter : Blank after)
    (hcomment : IsComment comment) :
    cleanChars (before ++ cs ++ after ++ comment) = name.toList := by
  rw [cleanChars_append hbefore hafter hcomment (h.plain hname) (h.isTrim hname),
    h.trimmed_squeeze_filter hname]

theorem Names.cleanChars_self (hname : IsName name) (h : Names name cs) :
    cleanChars cs = name.toList := by
  have hclean : cleanChars ([] ++ cs ++ [] ++ []) = name.toList :=
    h.cleanChars_eq hname (List.forall_mem_nil _) (List.forall_mem_nil _) fun c hc => by cases hc
  rwa [List.nil_append, List.append_nil, List.append_nil] at hclean

end Names

theorem IsName.cleanName_eq {name : String} (h : IsName name) : cleanName name = name := by
  rw [cleanName, Names.cleanChars_self h (.inl rfl), String.ofList_toList]

/-! ## Kinds of lines -/

theorem startsQuoted_eq (line : List Char) :
    startsQuoted line = ((line.dropWhile isBlank).head? == some '\'') := by
  rw [startsQuoted, trimmed, Text.head?_trimBoth]

/-- A line is not quoted if it has no quotes before the comment. -/
theorem startsQuoted_eq_false {cs comment : List Char} (hcs : ∀ c ∈ cs, c ≠ '\'')
    (hcomment : IsComment comment) : startsQuoted (cs ++ comment) = false := by
  have hhead : ∀ c ∈ ((cs ++ comment).dropWhile isBlank).head?, c ≠ '\'' := by
    intro c hc
    rw [List.dropWhile_append] at hc
    -- If all before the comment is blank, it is the comment that the rest starts with.
    split at hc
    case isTrue =>
      have hmark : ∀ c ∈ comment.head?, isBlank c = false := by
        intro c hc
        rw [hcomment c hc]
        decide
      rw [Text.dropWhile_eq_self_of_head hmark] at hc
      rw [hcomment c hc]
      decide
    case isFalse hsome =>
      have hne : cs.dropWhile isBlank ≠ [] := by simpa using hsome
      rw [List.head?_append_of_ne_nil _ hne] at hc
      exact hcs c ((List.dropWhile_sublist _).mem (List.mem_of_mem_head? hc))
  rw [startsQuoted_eq, beq_eq_false_iff_ne]
  exact fun hquote => hhead _ hquote rfl

theorem isTerminator_of_not_quoted {line : List Char} (h : startsQuoted line = false) :
    isTerminator line = false := by
  rw [isTerminator, h, Bool.and_false]

theorem IsFiller.startsQuoted_eq {line : List Char} (h : IsFiller line) :
    startsQuoted line = false := by
  cases h with
  | intro hblank hcomment =>
    refine startsQuoted_eq_false ?_ hcomment
    rintro c hc rfl
    exact absurd (hblank _ hc) (by decide)

theorem startsQuoted_of_quote {before rest : List Char} (hbefore : Blank before) :
    startsQuoted (before ++ '\'' :: rest) = true := by
  rw [startsQuoted_eq, List.dropWhile_append_of_pos hbefore, List.dropWhile_cons_of_neg (by decide)]
  rfl

theorem IsNameLine.startsQuoted_eq {name : String} {line : List Char} (h : IsNameLine name line) :
    startsQuoted line = true := by
  obtain ⟨⟨hbefore, ⟨_, _⟩, -⟩, -⟩ := h
  simpa using startsQuoted_of_quote hbefore

theorem IsNameLine.cleanChars_eq {name : String} {line : List Char} (hname : IsName name)
    (h : IsNameLine name line) : cleanChars line = name.toList := by
  obtain ⟨⟨hbefore, hquotes, hafter⟩, hcomment⟩ := h
  exact Names.cleanChars_eq hname (.inr hquotes) hbefore hafter hcomment

theorem IsNameLine.isTerminator_eq {name : String} {line : List Char} (hname : IsName name)
    (h : IsNameLine name line) : isTerminator line = false := by
  rw [isTerminator, h.cleanChars_eq hname, List.isEmpty_eq_false_iff.mpr hname.ne, Bool.false_and]

theorem cleanChars_eq_nil {cs : List Char}
    (h : ∀ c ∈ withoutComment cs, isQuoteMark c ∨ isBlank c) : cleanChars cs = [] := by
  have hblank : Blank ((trimmed (withoutComment cs)).filter fun c => !isQuoteMark c) := by
    intro c hc
    obtain ⟨hmem, hmark⟩ := List.mem_filter.mp hc
    have hkind := h c (Text.mem_of_mem_trimBoth hmem)
    simp_all
  obtain ⟨ds, hds, hsqueeze⟩ := squeeze_blank_append hblank fun c (hc : c ∈ [].head?) => by cases hc
  rw [List.append_nil, squeeze, List.append_nil] at hsqueeze
  rw [cleanChars, hsqueeze]
  exact Text.trimBoth_eq_nil hds

theorem IsBlankName.isTerminator_eq {line : List Char} (h : IsBlankName line) :
    isTerminator line = true := by
  obtain ⟨⟨before, rest, rfl, hbefore, hrest⟩, hcomment⟩ := h
  have hkind : ∀ c ∈ before ++ '\'' :: rest, isQuoteMark c ∨ isBlank c := by
    refine List.forall_mem_append.mpr ⟨fun c hc => .inr (hbefore c hc), ?_⟩
    exact List.forall_mem_cons.mpr ⟨.inl rfl, hrest⟩
  have hplain : Plain (before ++ '\'' :: rest) := by
    rintro c hc rfl
    exact absurd (hkind _ hc) (by decide)
  have hclean : cleanChars (before ++ '\'' :: rest ++ _) = [] :=
    cleanChars_eq_nil (by rwa [withoutComment_append hplain hcomment])
  rw [isTerminator, hclean, List.append_assoc, List.cons_append, startsQuoted_of_quote hbefore]
  rfl

/-! ## Parts between separators -/

section Separated

variable {p : Char → Bool} {cs rest : List Char} {parts : List (List Char)}

theorem tokensBy_cons_of_separator {c : Char} (hc : p c) :
    tokensBy p (c :: cs) = tokensBy p cs := by
  rw [tokensBy, tokensBy, tokensBy.go, if_pos hc]
  rfl

theorem tokensBy_append_of_separators {separators : List Char} (h : ∀ c ∈ separators, p c) :
    tokensBy p (separators ++ cs) = tokensBy p cs := by
  induction separators with
  | nil => rfl
  | cons c separators ih =>
    rw [List.cons_append, tokensBy_cons_of_separator (h c List.mem_cons_self)]
    exact ih fun d hd => h d (List.mem_cons_of_mem _ hd)

theorem tokensBy_go_append (h : ∀ c ∈ cs, p c = false) (token : List Char) :
    tokensBy.go p token (cs ++ rest) = tokensBy.go p (cs.reverse ++ token) rest := by
  induction cs generalizing token with
  | nil => rfl
  | cons c cs ih =>
    have hc := h c List.mem_cons_self
    rw [List.cons_append, tokensBy.go, if_neg (by simp [hc]),
      ih fun d hd => h d (List.mem_cons_of_mem _ hd), List.reverse_cons, List.append_assoc]
    rfl

theorem tokensBy_append (hne : cs ≠ []) (hcs : ∀ c ∈ cs, p c = false)
    (hnext : ∀ c ∈ rest.head?, p c) : tokensBy p (cs ++ rest) = cs :: tokensBy p rest := by
  rw [tokensBy, tokensBy_go_append hcs, List.append_nil]
  cases rest with
  | nil => simp [tokensBy.go, tokensBy, hne]
  | cons c rest =>
    have hc := hnext c rfl
    rw [tokensBy_cons_of_separator hc, tokensBy.go, if_pos hc, List.reverse_reverse]
    simp [tokensBy, hne]

/-- What stands between separators is found, and nothing else. -/
theorem Separated.tokensBy_eq (h : Separated p parts cs) : tokensBy p cs = parts := by
  induction h with
  | @done separators hseparators =>
    have hall : tokensBy p (separators ++ []) = tokensBy p [] :=
      tokensBy_append_of_separators hseparators
    rw [List.append_nil] at hall
    exact hall
  | part hseparators hne hcs hrest hnext ih =>
    rw [List.append_assoc, tokensBy_append_of_separators hseparators, tokensBy_append hne hcs hnext,
      ih]

/-- What is true of the separators and of the parts is true of the whole. -/
theorem Separated.forall_mem {P : Char → Prop} (h : Separated p parts cs) (hp : ∀ c, p c → P c)
    (hparts : ∀ part ∈ parts, ∀ c ∈ part, P c) : ∀ c ∈ cs, P c := by
  induction h with
  | done hseparators => exact fun c hc => hp c (hseparators c hc)
  | part hseparators hne hcs hrest hnext ih =>
    obtain ⟨hfirst, hothers⟩ := List.forall_mem_cons.mp hparts
    refine List.forall_mem_append.mpr ⟨List.forall_mem_append.mpr ⟨?_, hfirst⟩, ih hothers⟩
    exact fun c hc => hp c (hseparators c hc)

end Separated

/-! ## Lines of numbers -/

theorem Spells.isNumeric {x : Float} {cs : List Char} (h : Spells x cs) :
    ∀ c ∈ cs, Reading.IsNumeric c := by
  obtain ⟨n, rfl, -⟩ := h
  exact fun c => n.isNumeric_of_mem

theorem Spells.readNumber? {x : Float} {cs : List Char} (h : Spells x cs) :
    readNumber? (String.ofList cs) = some x := by
  obtain ⟨n, rfl, rfl⟩ := h
  exact n.readNumber?_text

theorem numbersOf_eq {numbers : List Float} {parts : List (List Char)}
    (h : List.Forall₂ Spells numbers parts) : numbersOf parts = .ok numbers := by
  induction h with
  | nil => rfl
  | cons hspells hrest ih =>
    rw [numbersOf] at ih ⊢
    rw [List.mapM_cons, hspells.readNumber?, ih]
    rfl

theorem Spells.isTrim {x : Float} {cs : List Char} (h : Spells x cs) : IsTrim isBlank cs :=
  .of_forall fun c hc => (h.isNumeric c hc).isBlank_eq

theorem Spells.ne_nil {x : Float} {cs : List Char} (h : Spells x cs) : cs ≠ [] := by
  obtain ⟨n, rfl, -⟩ := h
  exact n.text_ne_nil

/-- Neither a comment nor a quote begins at a character. -/
def IsPlain (c : Char) : Prop := c ≠ '!' ∧ c ≠ '\''

instance (c : Char) : Decidable (IsPlain c) := inferInstanceAs (Decidable (_ ∧ _))

theorem Spells.isPlain {x : Float} {cs : List Char} (h : Spells x cs) : ∀ c ∈ cs, IsPlain c :=
  fun c hc => (h.isNumeric c hc).induct (P := IsPlain) (by decide)

theorem isPlain_of_isBlank {c : Char} (h : isBlank c) : IsPlain c := by
  constructor <;> rintro rfl <;> exact absurd h (by decide)

theorem isPlain_of_isNumberSeparator {c : Char} (h : isNumberSeparator c) : IsPlain c := by
  rw [isNumberSeparator, Bool.or_eq_true, beq_iff_eq] at h
  rcases h with rfl | h
  · decide
  · exact isPlain_of_isBlank h

theorem exists_of_mem_forall₂ {numbers : List Float} {parts : List (List Char)}
    {P : Float → List Char → Prop} (h : List.Forall₂ P numbers parts) :
    ∀ part ∈ parts, ∃ x, P x part := by
  induction h with
  | nil => exact List.forall_mem_nil _
  | cons hfirst hrest ih => exact List.forall_mem_cons.mpr ⟨⟨_, hfirst⟩, ih⟩

namespace IsSystemLine

variable {numbers : List Float} {line : List Char}

theorem exists_parts (h : IsSystemLine numbers line) : ∃ cs comment parts, line = cs ++ comment ∧
    IsComment comment ∧ (∀ c ∈ cs, IsPlain c) ∧ tokensBy isNumberSeparator cs = parts ∧
    List.Forall₂ Spells numbers parts := by
  obtain ⟨⟨parts, hparts, hspells⟩, hcomment⟩ := h
  refine ⟨_, _, parts, rfl, hcomment, ?_, hparts.tokensBy_eq, hspells⟩
  refine hparts.forall_mem (fun c => isPlain_of_isNumberSeparator) fun part hpart => ?_
  obtain ⟨x, hx⟩ := exists_of_mem_forall₂ hspells part hpart
  exact hx.isPlain

theorem startsQuoted_eq (h : IsSystemLine numbers line) : startsQuoted line = false := by
  obtain ⟨cs, comment, parts, rfl, hcomment, hplain, -⟩ := h.exists_parts
  exact startsQuoted_eq_false (fun c hc => (hplain c hc).2) hcomment

theorem systemNumbers_eq (h : IsSystemLine numbers line) : systemNumbers line = .ok numbers := by
  obtain ⟨cs, comment, parts, rfl, hcomment, hplain, hparts, hspells⟩ := h.exists_parts
  rw [systemNumbers, withoutComment_append (fun c hc => (hplain c hc).1) hcomment]
  exact (congrArg numbersOf hparts).trans (numbersOf_eq hspells)

end IsSystemLine

namespace Padded

variable {P : List Char → Prop} {cs : List Char}

theorem plain (h : Padded P cs) (hP : ∀ cs, P cs → Plain cs) : Plain cs := by
  obtain ⟨hbefore, hcs, hafter⟩ := h
  exact (hbefore.plain.append (hP _ hcs)).append hafter.plain

theorem of_trimmed (h : Padded P cs) (hP : ∀ cs, P cs → IsTrim isBlank cs) : P (trimmed cs) := by
  obtain ⟨hbefore, hcs, hafter⟩ := h
  rwa [trimmed, Text.trimBoth_append hbefore hafter (hP _ hcs)]

end Padded

theorem Names.ne_nil {name : String} {cs : List Char} (hname : IsName name) (h : Names name cs) :
    cs ≠ [] := by
  rcases h with rfl | ⟨-, -⟩
  · exact hname.ne
  · simp

/-- The name of the coordinate system and the numbers of a grid are found on its line. -/
theorem IsGridLine.exists_parts {entry : GridEntry} {line : List Char} (hname : IsName entry.system)
    (h : IsGridLine entry line) : ∃ system numbers, gridParts line = system :: numbers ∧
      cleanChars system = entry.system.toList ∧ numbersOf numbers = .ok entry.numbers := by
  obtain @⟨body, comment, ⟨first, parts, hparts, hfirst, hspells⟩, hcomment⟩ := h
  have hsystem : Names entry.system (trimmed first) :=
    hfirst.of_trimmed fun cs => Names.isTrim hname
  have hnumbers : List.Forall₂ Spells entry.numbers (parts.map trimmed) := by
    rw [List.forall₂_map_right_iff]
    exact hspells.imp fun x part hpart => hpart.of_trimmed fun cs => Spells.isTrim
  have hplain : Plain body := by
    refine hparts.forall_mem (P := (· ≠ '!')) ?_
      (List.forall_mem_cons.mpr ⟨?_, fun part hpart => ?_⟩)
    · rintro c hc rfl
      exact absurd hc (by decide)
    · exact hfirst.plain fun cs => Names.plain hname
    · obtain ⟨x, hx⟩ := exists_of_mem_forall₂ hspells part hpart
      exact hx.plain fun cs hcs c hc => (hcs.isPlain c hc).1
  have hkept : ∀ t ∈ trimmed first :: parts.map trimmed, (!t.isEmpty) = true := by
    refine List.forall_mem_cons.mpr ⟨by simpa using hsystem.ne_nil hname, fun t ht => ?_⟩
    obtain ⟨x, hx⟩ := exists_of_mem_forall₂ hnumbers t ht
    simpa using hx.ne_nil
  refine ⟨trimmed first, parts.map trimmed, ?_, hsystem.cleanChars_self hname,
    numbersOf_eq hnumbers⟩
  rw [gridParts, withoutComment_append hplain hcomment, hparts.tokensBy_eq, List.map_cons]
  exact List.filter_eq_self.mpr hkept

end Gridding.Description
