import Gridding.Grid.Described
import Gridding.Proofs.Grid.Blocks

/-!
# Grid descriptions as a whole

Whatever is written for some coordinate systems and grids is read as these, and there is a text for
any of them. The grid of an entry is the one that the attributes of a data file give which carry the
same numbers.
-/

namespace Gridding

namespace Description

/-! ## Writing -/

/-- A description of coordinate systems and grids, the latter with the names of their systems. -/
structure Draft where
  systems : List (String × List Numeral)
  grids : List (String × String × List Numeral)

namespace Draft

def quoted (name : String) : List Char := '\'' :: name.toList ++ ['\'']

def systemLines (s : String × List Numeral) : List (List Char) :=
  [quoted s.1, [' '].intercalate (s.2.map Numeral.text)]

def gridLines (g : String × String × List Numeral) : List (List Char) :=
  [quoted g.1, [','].intercalate (quoted g.2.1 :: g.2.2.map Numeral.text)]

def blankName : List Char := ['\'', ' ', '\'']

def lines (d : Draft) : List (List Char) :=
  blankName :: (d.systems.flatMap systemLines ++ blankName :: (d.grids.flatMap gridLines ++ []))

/-- The text, each line ended by a line feed. -/
def text (d : Draft) : String := String.ofList (d.lines.flatMap (· ++ ['\n']))

def systemEntries (d : Draft) : List (String × List Float) :=
  d.systems.map fun s => (s.1, s.2.map Numeral.value)

def gridEntries (d : Draft) : List (String × GridEntry) :=
  d.grids.map fun g => (g.1, ⟨g.2.1, g.2.2.map Numeral.value⟩)

/-- All names in it are names. -/
structure IsNamed (d : Draft) : Prop where
  systems : ∀ s ∈ d.systems, IsName s.1
  grids : ∀ g ∈ d.grids, IsName g.1 ∧ IsName g.2.1

/-! ### Its lines -/

theorem quotes_quoted (name : String) : Quotes name (quoted name) := by
  have hplain : Quotes name ('\'' :: ([] ++ name.toList ++ []) ++ ['\'']) :=
    .intro (List.forall_mem_nil _) (List.forall_mem_nil _)
  rwa [List.nil_append, List.append_nil] at hplain

theorem isNameLine_quoted (name : String) : IsNameLine name (quoted name) :=
  .of (.of (quotes_quoted name))

theorem isBlankName_blankName : IsBlankName blankName := by
  refine .of ⟨[], [' ', '\''], rfl, List.forall_mem_nil _, ?_⟩
  simp [isQuoteMark, Text.isBlank, Text.blanks]

theorem spells_numerals (ns : List Numeral) :
    List.Forall₂ Spells (ns.map Numeral.value) (ns.map Numeral.text) := by
  induction ns with
  | nil => exact .nil
  | cons n ns ih => exact .cons ⟨n, rfl, rfl⟩ ih

theorem forall_numerals {P : Char → Prop}
    (h : ∀ n < 128, Reading.IsNumeric (Char.ofNat n) → P (Char.ofNat n)) (ns : List Numeral) :
    ∀ part ∈ ns.map Numeral.text, part ≠ [] ∧ ∀ c ∈ part, P c := by
  intro part hpart
  obtain ⟨n, -, rfl⟩ := List.mem_map.mp hpart
  exact ⟨n.text_ne_nil, fun c hc => (n.isNumeric_of_mem hc).induct h⟩

theorem isSystemLine_numerals (ns : List Numeral) :
    IsSystemLine (ns.map Numeral.value) ([' '].intercalate (ns.map Numeral.text)) := by
  refine .of ⟨_, .intercalate (by decide) ?_, spells_numerals ns⟩
  exact forall_numerals (P := fun c => isNumberSeparator c = false) (by decide) ns

theorem isGridLine_numerals {system : String} (hsystem : IsName system) (ns : List Numeral) :
    IsGridLine ⟨system, ns.map Numeral.value⟩
      ([','].intercalate (quoted system :: ns.map Numeral.text)) := by
  refine .of ⟨_, _, .intercalate rfl ?_, .of (.inr (quotes_quoted system)), ?_⟩
  · have hcomma : ∀ c ∈ quoted system, (c == ',') = false := by
      have hquote : ∀ c ∈ ['\''], (c == ',') = false := by simp
      refine List.forall_mem_append.mpr ⟨List.forall_mem_cons.mpr ⟨rfl, fun c hc => ?_⟩, hquote⟩
      have hmark := (hsystem.unmarked c hc).1
      simp_all [isQuoteMark]
    exact List.forall_mem_cons.mpr ⟨⟨List.cons_ne_nil _ _, hcomma⟩,
      forall_numerals (P := fun c => (c == ',') = false) (by decide) ns⟩
  · exact (spells_numerals ns).imp fun x cs h => .of h

theorem isBlock_systems {systems : List (String × List Numeral)} (h : ∀ s ∈ systems, IsName s.1) :
    IsBlock IsSystemLine (systems.map fun s => (s.1, s.2.map Numeral.value))
      (systems.flatMap systemLines) := by
  induction systems with
  | nil => exact .done
  | cons s systems ih =>
    obtain ⟨hname, hothers⟩ := List.forall_mem_cons.mp h
    exact .entry hname (isNameLine_quoted s.1) (isSystemLine_numerals s.2) (ih hothers)

theorem isBlock_grids {grids : List (String × String × List Numeral)}
    (h : ∀ g ∈ grids, IsName g.1 ∧ IsName g.2.1) :
    IsBlock IsGridEntry (grids.map fun g => (g.1, ⟨g.2.1, g.2.2.map Numeral.value⟩))
      (grids.flatMap gridLines) := by
  induction grids with
  | nil => exact .done
  | cons g grids ih =>
    obtain ⟨⟨hname, hsystem⟩, hothers⟩ := List.forall_mem_cons.mp h
    exact .entry hname (isNameLine_quoted g.1) ⟨hsystem, isGridLine_numerals hsystem g.2.2⟩
      (ih hothers)

theorem typeset_lines {ls : List (List Char)} (h : ∀ l ∈ ls, IsLine l) :
    Typeset ls (ls.flatMap (· ++ ['\n'])) := by
  induction ls with
  | nil => exact .done
  | cons l ls ih =>
    obtain ⟨hline, hothers⟩ := List.forall_mem_cons.mp h
    rw [List.flatMap_cons, List.append_assoc]
    exact .lineFeed hline (ih hothers)

theorem isLine_quoted {name : String} (h : IsName name) : IsLine (quoted name) := by
  have hquote : IsLine ['\''] := by simp [IsLine]
  refine List.forall_mem_append.mpr ⟨List.forall_mem_append.mpr ⟨hquote, fun c hc => ?_⟩, hquote⟩
  constructor
  · rintro rfl
    exact absurd (h.space '\n' hc rfl) (by decide)
  · rintro rfl
    exact absurd (h.space '\r' hc rfl) (by decide)

theorem isLine_intercalate {separator : Char} (hseparator : separator ≠ '\n' ∧ separator ≠ '\r')
    {parts : List (List Char)} (h : ∀ part ∈ parts, IsLine part) :
    IsLine ([separator].intercalate parts) := by
  induction parts with
  | nil => exact List.forall_mem_nil _
  | cons first others ih =>
    obtain ⟨hfirst, hothers⟩ := List.forall_mem_cons.mp h
    cases others with
    | nil => simpa [List.intercalate] using hfirst
    | cons second others =>
      have hall : IsLine (first ++ separator :: [separator].intercalate (second :: others)) :=
        List.forall_mem_append.mpr ⟨hfirst, List.forall_mem_cons.mpr ⟨hseparator, ih hothers⟩⟩
      simpa [List.intercalate] using hall

theorem isLine_numerals (ns : List Numeral) : ∀ part ∈ ns.map Numeral.text, IsLine part :=
  fun part hpart =>
    (forall_numerals (P := fun c => c ≠ '\n' ∧ c ≠ '\r') (by decide) ns part hpart).2

theorem isLine_of_mem {d : Draft} (h : d.IsNamed) : ∀ l ∈ d.lines, IsLine l := by
  have hblank : IsLine blankName := by simp [IsLine, blankName]
  have hsystems : ∀ l ∈ d.systems.flatMap systemLines, IsLine l := by
    intro l hl
    obtain ⟨s, hs, hl⟩ := List.mem_flatMap.mp hl
    obtain rfl | rfl : l = _ ∨ l = _ := by simpa [systemLines] using hl
    · exact isLine_quoted (h.systems s hs)
    · exact isLine_intercalate (by decide) (isLine_numerals s.2)
  have hgrids : ∀ l ∈ d.grids.flatMap gridLines, IsLine l := by
    intro l hl
    obtain ⟨g, hg, hl⟩ := List.mem_flatMap.mp hl
    obtain ⟨hname, hsystem⟩ := h.grids g hg
    obtain rfl | rfl : l = _ ∨ l = _ := by simpa [gridLines] using hl
    · exact isLine_quoted hname
    · exact isLine_intercalate (by decide)
        (List.forall_mem_cons.mpr ⟨isLine_quoted hsystem, isLine_numerals g.2.2⟩)
  rw [lines, List.append_nil]
  exact List.forall_mem_cons.mpr ⟨hblank, List.forall_mem_append.mpr
    ⟨hsystems, List.forall_mem_cons.mpr ⟨hblank, hgrids⟩⟩⟩

/-- Every draft with proper names is written as a description. -/
theorem renders {d : Draft} (h : d.IsNamed) : Renders d.systemEntries d.gridEntries d.text := by
  refine ⟨d.lines, ?_, ?_⟩
  · exact .headed isBlankName_blankName (isBlock_systems h.systems)
      (.intro isBlankName_blankName (isBlock_grids h.grids) (List.forall_mem_nil _))
  · rw [text, String.toList_ofList]
    exact typeset_lines (isLine_of_mem h)

end Draft

end Description

/-! ## Attributes -/

namespace GridAttributes

variable {attributes : List (String × Document)}

def attribute? (attributes : List (String × Document)) (name : String) : Option Document :=
  (attributes.find? fun a => a.1 == name).map (·.2)

/-- An attribute stands for a number. -/
def HasFloat (attributes : List (String × Document)) (name : String) (x : Float) : Prop :=
  ∃ d, attribute? attributes name = some d ∧ floatOf d = .ok x

/-- An attribute stands for the integer part of a number, if it has one. -/
def HasInteger (attributes : List (String × Document)) (name : String) (x : Float) : Prop :=
  ∃ d, attribute? attributes name = some d ∧ integerOf d = integerPart? x

/-- Attributes say the same about a grid as an entry for it and one for its coordinate system. -/
inductive Carries (attributes : List (String × Document)) (name : String) :
    List Float → List Float → Prop where
  | intro {kind alpha beta gamma centerX centerY x0 y0 dx dy columns rows : Float}
      {more : List Float}
      (hname : ∃ d, attribute? attributes "GDNAM" = some d ∧ Text.trim d.display = name)
      (hkind : HasInteger attributes "GDTYP" kind) (halpha : HasFloat attributes "P_ALP" alpha)
      (hbeta : HasFloat attributes "P_BET" beta) (hgamma : HasFloat attributes "P_GAM" gamma)
      (hcenterX : HasFloat attributes "XCENT" centerX)
      (hcenterY : HasFloat attributes "YCENT" centerY) (hx0 : HasFloat attributes "XORIG" x0)
      (hy0 : HasFloat attributes "YORIG" y0) (hdx : HasFloat attributes "XCELL" dx)
      (hdy : HasFloat attributes "YCELL" dy) (hcolumns : HasInteger attributes "NCOLS" columns)
      (hrows : HasInteger attributes "NROWS" rows)
      (hboundary : ∀ d, attribute? attributes "NTHIK" = some d → ∃ n, integerOf d = .ok n) :
    Carries attributes name [kind, alpha, beta, gamma, centerX, centerY]
      (x0 :: y0 :: dx :: dy :: columns :: rows :: more)

theorem HasFloat.eq {name : String} {x : Float} (h : HasFloat attributes name x) :
    (((attributes.find? fun a => a.1 == name).map (·.2)).map floatOf).getD (.ok 0.0) = .ok x := by
  obtain ⟨d, hd, hx⟩ := h
  rw [← attribute?, hd, Option.map_some, Option.getD_some, hx]

theorem HasInteger.eq {name : String} {x : Float} (h : HasInteger attributes name x)
    (default : Int) :
    (((attributes.find? fun a => a.1 == name).map (·.2)).map integerOf).getD (.ok default) =
      integerPart? x := by
  obtain ⟨d, hd, hx⟩ := h
  rw [← attribute?, hd, Option.map_some, Option.getD_some, hx]

/-- Attributes that carry a grid are read as its numbers, as far as these have integer parts. -/
theorem read_of_carries {name : String} {kind alpha beta gamma centerX centerY x0 y0 dx dy columns
      rows : Float} {more : List Float}
    (h : Carries attributes name [kind, alpha, beta, gamma, centerX, centerY]
      (x0 :: y0 :: dx :: dy :: columns :: rows :: more)) :
    ∃ boundary, read attributes = do
      let kind ← integerPart? kind
      let columns ← integerPart? columns
      let rows ← integerPart? rows
      return ⟨kind, alpha, beta, gamma, centerX, centerY, name, x0, y0, dx, dy, columns, rows,
        boundary⟩ := by
  cases h with
  | intro hname hkind halpha hbeta hgamma hcenterX hcenterY hx0 hy0 hdx hdy hcolumns hrows
      hboundary =>
    obtain ⟨d, hd, rfl⟩ := hname
    obtain ⟨boundary, hb⟩ : ∃ n, ((attribute? attributes "NTHIK").map integerOf).getD (.ok 1) =
        .ok n := by
      cases hthick : attribute? attributes "NTHIK" with
      | none => exact ⟨1, rfl⟩
      | some d => exact hboundary d hthick
    refine ⟨boundary, ?_⟩
    rw [attribute?] at hd hb
    rw [read]
    simp only [hkind.eq, halpha.eq, hbeta.eq, hgamma.eq, hcenterX.eq, hcenterY.eq, hd, hx0.eq,
      hy0.eq, hdx.eq, hdy.eq, hcolumns.eq, hrows.eq, hb, bind, Except.bind, Option.map_some,
      Option.getD_some]

end GridAttributes

namespace Description

section Numbers

variable {name : String} {kind alpha beta gamma centerX centerY x0 y0 dx dy columns rows : Float}
  {more : List Float}

/-- How the numbers of two entries make a grid. -/
theorem Catalog.grid_of_lookUp {c : Catalog} {system : String} (hname : IsName name)
    (hfound : c.lookUp name = .ok ([kind, alpha, beta, gamma, centerX, centerY],
      ⟨system, x0 :: y0 :: dx :: dy :: columns :: rows :: more⟩)) :
    c.grid name = (do
      let kind ← (integerPart? kind).mapError fun e => .system (.number e)
      let system ← (CoordinateSystem.ofGridType kind alpha beta gamma centerX centerY).mapError
        fun e => .system (.projection e)
      let nx ← (integerPart? columns).mapError .number
      let ny ← (integerPart? rows).mapError .number
      (Grid.regular name nx ny ⟨dx, dy, x0, y0⟩ (.known system)).mapError .grid) := by
  rw [Catalog.grid, hfound, hname.cleanName_eq]
  have hsystem : CoordinateSystem.ofParameters
      ([kind, alpha, beta, gamma, centerX, centerY].map .number) = (do
        let kind ← (integerPart? kind).mapError .number
        (CoordinateSystem.ofGridType kind alpha beta gamma centerX centerY).mapError
          .projection) := rfl
  simp only [Except.mapError, bind, Except.bind] at hsystem ⊢
  rw [hsystem]
  cases integerPart? kind with
  | error e => rfl
  | ok kind =>
    simp only
    cases CoordinateSystem.ofGridType kind alpha beta gamma centerX centerY <;> rfl

end Numbers

/-- The grid of an entry is the one that attributes give which carry it. -/
theorem Catalog.grid_eq_iff {c : Catalog} {name : String} {parameters : List Float}
    {entry : GridEntry} {attributes : List (String × Document)} (hname : IsName name)
    (hfound : c.lookUp name = .ok (parameters, entry))
    (h : GridAttributes.Carries attributes name parameters entry.numbers)
    (grid : Grid Footprint Float) :
    c.grid name = .ok grid ↔
      ((GridAttributes.read attributes).mapError .number >>= GridAttributes.grid) = .ok grid := by
  obtain ⟨system, numbers⟩ := entry
  have hcarries := h
  cases h with
  | @intro kind alpha beta gamma centerX centerY x0 y0 dx dy columns rows more =>
    obtain ⟨boundary, hread⟩ := GridAttributes.read_of_carries hcarries
    rw [Catalog.grid_of_lookUp hname hfound, hread]
    -- One of the two makes the coordinate system before it reads the columns and rows, the other
    -- after that. So they may fail with different problems, but they fail together.
    cases integerPart? kind with
    | error e => simp [bind, Except.bind, Except.mapError]
    | ok kind =>
      cases integerPart? columns with
      | error e =>
        cases hsystem : CoordinateSystem.ofGridType kind alpha beta gamma centerX centerY <;>
          simp [bind, Except.bind, Except.mapError, hsystem]
      | ok nx =>
        cases integerPart? rows with
        | error e =>
          cases hsystem : CoordinateSystem.ofGridType kind alpha beta gamma centerX centerY <;>
            simp [bind, Except.bind, Except.mapError, hsystem]
        | ok ny => exact Iff.rfl

/-! ## Reading inverts writing -/

theorem IsBlock.isName {α : Type} {IsEntry : α → List Char → Prop} {entries : List (String × α)}
    {ls : List (List Char)} (h : IsBlock IsEntry entries ls) : ∀ e ∈ entries, IsName e.1 := by
  induction h with
  | done => exact List.forall_mem_nil _
  | filler hline h ih => exact ih
  | entry hname hfirst hsecond h ih => exact List.forall_mem_cons.mpr ⟨hname, ih⟩

theorem Renders.isName {systems : List (String × List Float)} {grids : List (String × GridEntry)}
    {text : String} (h : Renders systems grids text) : ∀ e ∈ grids, IsName e.1 := by
  obtain ⟨ls, hdescription, -⟩ := h
  obtain ⟨-, -, hrest⟩ | ⟨-, -, -, hrest⟩ := hdescription <;>
  · obtain ⟨-, hgrids, -⟩ := hrest
    exact hgrids.isName

/-- A text that is written for coordinate systems and grids is read as these. The grids are listed
in the order in which their names first came; under each name its last entry is found, with the last
entry of the coordinate system it refers to, and it is a problem if there is none. The grid they
describe is the one that attributes give which carry the same numbers. -/
theorem read_renders {systems : List (String × List Float)} {grids : List (String × GridEntry)}
    {text : String} (h : Renders systems grids text) (hne : grids ≠ []) :
    ∃ c, read text = .ok c ∧ c.gridNames = (grids.map (·.1)).eraseDups ∧
      ∀ name entry, grids.reverse.lookup name = some entry →
        (c.lookUp name = match systems.reverse.lookup entry.system with
          | some numbers => .ok (numbers, entry)
          | none => .error (.unknownSystem entry.system name)) ∧
        ∀ parameters attributes, systems.reverse.lookup entry.system = some parameters →
          GridAttributes.Carries attributes name parameters entry.numbers →
            ∀ grid, c.grid name = .ok grid ↔
              ((GridAttributes.read attributes).mapError .number >>= GridAttributes.grid) =
                .ok grid := by
  refine ⟨_, h.read_eq hne, Entries.keys_collect grids, fun name entry hentry => ?_⟩
  have hname : IsName name := h.isName (name, entry) (List.mem_reverse.mp (mem_of_lookup hentry))
  have hfound : Catalog.lookUp ⟨Entries.collect systems, Entries.collect grids⟩ name =
      match systems.reverse.lookup entry.system with
      | some numbers => .ok (numbers, entry)
      | none => .error (.unknownSystem entry.system name) := by
    simp only [Catalog.lookUp, hname.cleanName_eq, Entries.lookup_collect, hentry]
    cases systems.reverse.lookup entry.system <;> rfl
  refine ⟨hfound, fun parameters attributes hsystem hcarries grid => ?_⟩
  rw [hsystem] at hfound
  exact Catalog.grid_eq_iff hname hfound hcarries grid

/-! A description of one cell, with numbers that have a point and an exponent behind a `D`. -/

def one : Numeral := ⟨.absent, ['1'], none, none, by simp, by simp⟩

def half : Numeral :=
  ⟨.plus, ['5'], some [], some ⟨'D', .minus, ['1'], by simp, by simp, by simp⟩, by simp, by simp⟩

theorem value_one : one.value = 1.0 := by decide +kernel

theorem value_half : half.value = 0.5 := by decide +kernel

def unitDraft : Draft where
  systems := [("LL", [one, half, half, half, half, half])]
  grids := [("G 1", "LL", [half, half, one, one, one, one])]

def unitText : String :=
  "' '\n'LL'\n1 +5.D-1 +5.D-1 +5.D-1 +5.D-1 +5.D-1\n' '\n'G 1'\n'LL',+5.D-1,+5.D-1,1,1,1,1\n"

def unitAttributes : List (String × Document) :=
  [("GDNAM", .text "G 1  "), ("GDTYP", .number one.value), ("P_ALP", .number half.value),
    ("P_BET", .number half.value), ("P_GAM", .number half.value), ("XCENT", .number half.value),
    ("YCENT", .number half.value), ("XORIG", .number half.value), ("YORIG", .number half.value),
    ("XCELL", .number one.value), ("YCELL", .number one.value), ("NCOLS", .number one.value),
    ("NROWS", .number one.value)]

theorem isNamed_unitDraft : unitDraft.IsNamed := by
  have hsystem : IsName "LL" := by
    refine ⟨by decide, ?_, ?_, ?_, ?_, ?_⟩ <;> simp [isQuoteMark, Text.isBlank, Text.blanks]
  have hgrid : IsName "G 1" := by
    refine ⟨by decide, ?_, ?_, ?_, ?_, ?_⟩ <;> simp [isQuoteMark, Text.isBlank, Text.blanks]
  exact ⟨by simpa [unitDraft] using hsystem, by simpa [unitDraft] using ⟨hgrid, hsystem⟩⟩

theorem carries_unitAttributes : GridAttributes.Carries unitAttributes "G 1"
    [one.value, half.value, half.value, half.value, half.value, half.value]
    [half.value, half.value, one.value, one.value, one.value, one.value] := by
  have hfound (name : String) (x : Float)
      (h : unitAttributes.find? (·.1 == name) = some (name, .number x)) :
      GridAttributes.attribute? unitAttributes name = some (.number x) := by
    rw [GridAttributes.attribute?, h, Option.map_some]
  have hfloat (name : String) (x : Float)
      (h : unitAttributes.find? (·.1 == name) = some (name, .number x)) :
      GridAttributes.HasFloat unitAttributes name x := ⟨_, hfound name x h, rfl⟩
  have hinteger (name : String) (x : Float)
      (h : unitAttributes.find? (·.1 == name) = some (name, .number x)) :
      GridAttributes.HasInteger unitAttributes name x := ⟨_, hfound name x h, rfl⟩
  refine .intro ⟨.text "G 1  ", by simp [unitAttributes, GridAttributes.attribute?], by decide⟩
    (hinteger _ _ ?_) (hfloat _ _ ?_) (hfloat _ _ ?_) (hfloat _ _ ?_) (hfloat _ _ ?_)
    (hfloat _ _ ?_) (hfloat _ _ ?_) (hfloat _ _ ?_) (hfloat _ _ ?_) (hfloat _ _ ?_)
    (hinteger _ _ ?_) (hinteger _ _ ?_) ?_
  all_goals simp [unitAttributes, GridAttributes.attribute?]

theorem read_unitText : one.value = 1.0 ∧ half.value = 0.5 ∧
    ∃ c, read unitText = .ok c ∧ c.gridNames = ["G 1"] ∧
    c.lookUp "G 1" =
      .ok ([one.value, half.value, half.value, half.value, half.value, half.value],
        ⟨"LL", [half.value, half.value, one.value, one.value, one.value, one.value]⟩) ∧
    ∀ grid, c.grid "G 1" = .ok grid ↔
      ((GridAttributes.read unitAttributes).mapError .number >>= GridAttributes.grid) =
        .ok grid := by
  have htext : unitDraft.text = unitText := by decide
  obtain ⟨c, hread, hnames, hentries⟩ :=
    read_renders (Draft.renders isNamed_unitDraft) (List.cons_ne_nil _ _)
  obtain ⟨hfound, hgrid⟩ := hentries "G 1"
    ⟨"LL", [half.value, half.value, one.value, one.value, one.value, one.value]⟩ rfl
  rw [htext] at hread
  exact ⟨value_one, value_half, c, hread, hnames, hfound, hgrid _ _ rfl carries_unitAttributes⟩

end Description

end Gridding
