import Gridding.Proofs.Grid.Rendering
import Gridding.Proofs.Entries

/-!
# The blocks of grid descriptions

A description is written line by line: a block of coordinate systems, a blank name and a block of
grids. Reading it gives back the entries of both blocks. Of the entries of one name the last counts,
and the names keep the order in which they first came.
-/

namespace Gridding

namespace Description

/-! ## Lines of a text -/

def IsLine (cs : List Char) : Prop := ∀ c ∈ cs, c ≠ '\n' ∧ c ≠ '\r'

/-- Lines that are written one after the other, each with one of the usual ends. The last one may go
without, and a line feed that follows a carriage return belongs to it. -/
inductive Typeset : List (List Char) → List Char → Prop where
  | done : Typeset [] []
  | last {line : List Char} (hline : IsLine line) (hne : line ≠ []) : Typeset [line] line
  | lineFeed {line text : List Char} {lines : List (List Char)} (hline : IsLine line)
      (h : Typeset lines text) : Typeset (line :: lines) (line ++ '\n' :: text)
  | bothEnds {line text : List Char} {lines : List (List Char)} (hline : IsLine line)
      (h : Typeset lines text) : Typeset (line :: lines) (line ++ '\r' :: '\n' :: text)
  | carriageReturn {line text : List Char} {lines : List (List Char)} (hline : IsLine line)
      (h : Typeset lines text) (hnext : ∀ c ∈ text.head?, c ≠ '\n') :
    Typeset (line :: lines) (line ++ '\r' :: text)

theorem lines_go_append {line : List Char} (hline : IsLine line) (acc rest : List Char) :
    lines.go acc (line ++ rest) = lines.go (line.reverse ++ acc) rest := by
  induction line generalizing acc with
  | nil => rfl
  | cons c line ih =>
    obtain ⟨hfeed, hreturn⟩ := hline c List.mem_cons_self
    have hstep : lines.go acc (c :: (line ++ rest)) = lines.go (c :: acc) (line ++ rest) := by
      rw [lines.go.eq_def]
      split <;> simp_all
    rw [List.cons_append, hstep, ih fun d hd => hline d (List.mem_cons_of_mem _ hd),
      List.reverse_cons, List.append_assoc]
    rfl

theorem Typeset.lines_go_eq {ls : List (List Char)} {text : List Char} (h : Typeset ls text) :
    lines.go [] text = ls := by
  induction h with
  | done => rfl
  | @last line hline hne =>
    have hall := lines_go_append hline [] []
    rw [List.append_nil, List.append_nil, lines.go, List.reverse_reverse] at hall
    · exact hall
    · exact fun hempty => hne (List.reverse_eq_nil_iff.mp hempty)
  | lineFeed hline h ih =>
    rw [lines_go_append hline, List.append_nil, lines.go, List.reverse_reverse, ih]
  | bothEnds hline h ih =>
    rw [lines_go_append hline, List.append_nil, lines.go, List.reverse_reverse, ih]
  | carriageReturn hline h hnext ih =>
    rw [lines_go_append hline, List.append_nil, lines.go, List.reverse_reverse, ih]
    rintro rest rfl
    exact hnext '\n' rfl rfl

theorem Typeset.lines_eq {ls : List (List Char)} {text : String} (h : Typeset ls text.toList) :
    lines text = ls := h.lines_go_eq

/-! ## Blocks -/

/-- Entries that are written as a line with the name and a line with the rest. Blank and comment
lines may stand between them. -/
inductive IsBlock {α : Type} (IsEntry : α → List Char → Prop) :
    List (String × α) → List (List Char) → Prop where
  | done : IsBlock IsEntry [] []
  | filler {entries : List (String × α)} {line : List Char} {ls : List (List Char)}
      (hline : IsFiller line) (h : IsBlock IsEntry entries ls) :
      IsBlock IsEntry entries (line :: ls)
  | entry {name : String} {value : α} {entries : List (String × α)} {first second : List Char}
      {ls : List (List Char)} (hname : IsName name) (hfirst : IsNameLine name first)
      (hsecond : IsEntry value second) (h : IsBlock IsEntry entries ls) :
    IsBlock IsEntry ((name, value) :: entries) (first :: second :: ls)

def IsGridEntry (entry : GridEntry) (line : List Char) : Prop :=
  IsName entry.system ∧ IsGridLine entry line

/-- A blank name, the block of grids, and perhaps another blank name at the end. -/
inductive IsGridPart (grids : List (String × GridEntry)) : List (List Char) → Prop where
  | intro {terminator : List Char} {block ending : List (List Char)}
      (hterminator : IsBlankName terminator) (hblock : IsBlock IsGridEntry grids block)
      (hending : ∀ line ∈ ending, IsBlankName line ∨ IsFiller line) :
    IsGridPart grids (terminator :: (block ++ ending))

/-- The lines of a description. The first is a blank name or names a coordinate system. -/
inductive IsDescription (systems : List (String × List Float)) (grids : List (String × GridEntry)) :
    List (List Char) → Prop where
  | headed {header : List Char} {block rest : List (List Char)} (hheader : IsBlankName header)
      (hblock : IsBlock IsSystemLine systems block) (hrest : IsGridPart grids rest) :
    IsDescription systems grids (header :: (block ++ rest))
  | bare {name : String} {first : List Char} {block rest : List (List Char)}
      (hname : IsName name) (hfirst : IsNameLine name first)
      (hblock : IsBlock IsSystemLine systems (first :: block)) (hrest : IsGridPart grids rest) :
    IsDescription systems grids (first :: (block ++ rest))

/-! ## Reading blocks -/

theorem readSystems_of_filler {line : List Char} {ls : List (List Char)}
    {found : List (String × List Float)} (hline : IsFiller line) :
    readSystems (line :: ls) found = readSystems ls found := by
  cases ls with
  | nil => rfl
  | cons second ls => rw [readSystems, hline.startsQuoted_eq]; rfl

theorem readSystems_of_entry {name : String} {numbers : List Float} {first second : List Char}
    {ls : List (List Char)} {found : List (String × List Float)} (hname : IsName name)
    (hfirst : IsNameLine name first) (hsecond : IsSystemLine numbers second) :
    readSystems (first :: second :: ls) found =
      readSystems ls (Entries.put name numbers found) := by
  rw [readSystems, if_pos hfirst.startsQuoted_eq, hsecond.systemNumbers_eq,
    hfirst.cleanChars_eq hname, String.ofList_toList]
  rfl

/-- The entries of the first block are put one after the other. -/
theorem IsBlock.readSystems_eq {systems : List (String × List Float)} {ls : List (List Char)}
    (h : IsBlock IsSystemLine systems ls) (found : List (String × List Float)) :
    readSystems ls found =
      .ok (systems.foldl (fun found e => Entries.put e.1 e.2 found) found) := by
  induction h generalizing found with
  | done => rfl
  | filler hline h ih => rw [readSystems_of_filler hline, ih]
  | entry hname hfirst hsecond h ih =>
    rw [readSystems_of_entry hname hfirst hsecond, ih]
    rfl

/-- No line of the first block is taken for its end. -/
theorem IsBlock.not_isTerminator {systems : List (String × List Float)} {ls : List (List Char)}
    (h : IsBlock IsSystemLine systems ls) : ∀ line ∈ ls, isTerminator line = false := by
  induction h with
  | done => exact List.forall_mem_nil _
  | filler hline h ih =>
    exact List.forall_mem_cons.mpr ⟨isTerminator_of_not_quoted hline.startsQuoted_eq, ih⟩
  | entry hname hfirst hsecond h ih =>
    exact List.forall_mem_cons.mpr ⟨hfirst.isTerminator_eq hname, List.forall_mem_cons.mpr
      ⟨isTerminator_of_not_quoted hsecond.startsQuoted_eq, ih⟩⟩

theorem readGrids_of_skipped {line : List Char} {ls : List (List Char)}
    {found : List (String × GridEntry)} (hline : IsBlankName line ∨ IsFiller line) :
    readGrids (line :: ls) found = readGrids ls found := by
  have hskipped : (startsQuoted line && !isTerminator line) = false := by
    rcases hline with hblank | hfiller
    · rw [hblank.isTerminator_eq, Bool.not_true, Bool.and_false]
    · rw [hfiller.startsQuoted_eq, Bool.false_and]
  cases ls with
  | nil => rfl
  | cons second ls => rw [readGrids, hskipped]; rfl

theorem readGrids_of_entry {name : String} {entry : GridEntry} {first second : List Char}
    {ls : List (List Char)} {found : List (String × GridEntry)} (hname : IsName name)
    (hfirst : IsNameLine name first) (hsecond : IsGridEntry entry second) :
    readGrids (first :: second :: ls) found = readGrids ls (Entries.put name entry found) := by
  obtain ⟨system, numbers, hparts, hsystem, hnumbers⟩ := hsecond.2.exists_parts hsecond.1
  have hentry : (startsQuoted first && !isTerminator first) = true := by
    rw [hfirst.startsQuoted_eq, hfirst.isTerminator_eq hname]
    rfl
  rw [readGrids, if_pos hentry, hparts]
  simp only [hnumbers, hsystem, hfirst.cleanChars_eq hname, String.ofList_toList]
  rfl

/-- So are the entries of the second one, whatever comes after it. -/
theorem IsBlock.readGrids_append {grids : List (String × GridEntry)} {ls : List (List Char)}
    (h : IsBlock IsGridEntry grids ls) (rest : List (List Char))
    (found : List (String × GridEntry)) :
    readGrids (ls ++ rest) found =
      readGrids rest (grids.foldl (fun found e => Entries.put e.1 e.2 found) found) := by
  induction h generalizing found with
  | done => rfl
  | filler hline h ih => rw [List.cons_append, readGrids_of_skipped (.inr hline), ih]
  | entry hname hfirst hsecond h ih =>
    rw [List.cons_append, List.cons_append, readGrids_of_entry hname hfirst hsecond, ih]
    rfl

theorem readGrids_of_ending {ending : List (List Char)} {found : List (String × GridEntry)}
    (h : ∀ line ∈ ending, IsBlankName line ∨ IsFiller line) :
    readGrids ending found = .ok found := by
  induction ending with
  | nil => rfl
  | cons line ending ih =>
    rw [readGrids_of_skipped (h line List.mem_cons_self)]
    exact ih fun l hl => h l (List.mem_cons_of_mem _ hl)

/-! ## Reading descriptions -/

/-- The lines behind the first one are cut at the end of the first block. -/
theorem read_of_lines {systems : List (String × List Float)} {grids : List (String × GridEntry)}
    {first : List Char} {block rest : List (List Char)} {text : String}
    (htext : lines text = first :: (block ++ rest))
    (hblock : ∀ line ∈ block, isTerminator line = false) (hrest : IsGridPart grids rest)
    (hsystems : IsBlock IsSystemLine systems
      (if isTerminator first then block else first :: block)) (hne : grids ≠ []) :
    read text = .ok ⟨Entries.collect systems, Entries.collect grids⟩ := by
  obtain @⟨terminator, gridBlock, ending, hterminator, hgrids, hending⟩ := hrest
  have hkept : ∀ line ∈ block, (!isTerminator line) = true := fun line hline => by
    rw [hblock line hline, Bool.not_false]
  have htake : (block ++ terminator :: (gridBlock ++ ending)).takeWhile (fun l => !isTerminator l) =
      block := by
    rw [List.takeWhile_append_of_pos hkept, List.takeWhile_cons_of_neg, List.append_nil]
    simp [hterminator.isTerminator_eq]
  have hdrop : (block ++ terminator :: (gridBlock ++ ending)).dropWhile (fun l => !isTerminator l) =
      terminator :: (gridBlock ++ ending) := by
    rw [List.dropWhile_append_of_pos hkept, List.dropWhile_cons_of_neg]
    simp [hterminator.isTerminator_eq]
  have hgrid : readGrids (gridBlock ++ ending) [] = .ok (Entries.collect grids) := by
    rw [hgrids.readGrids_append, readGrids_of_ending hending]
    rfl
  have hsome : (Entries.collect grids).isEmpty = false :=
    List.isEmpty_eq_false_iff.mpr (Entries.collect_ne_nil hne)
  rw [read, htext]
  simp only [htake, hdrop]
  rw [hsystems.readSystems_eq, hgrid]
  simp only [bind, Except.bind, hsome]
  rfl

/-- A text that is written for some coordinate systems and grids. -/
def Renders (systems : List (String × List Float)) (grids : List (String × GridEntry))
    (text : String) : Prop :=
  ∃ ls, IsDescription systems grids ls ∧ Typeset ls text.toList

theorem Renders.read_eq {systems : List (String × List Float)} {grids : List (String × GridEntry)}
    {text : String} (h : Renders systems grids text) (hne : grids ≠ []) :
    read text = .ok ⟨Entries.collect systems, Entries.collect grids⟩ := by
  obtain ⟨ls, hdescription, htext⟩ := h
  cases hdescription with
  | headed hheader hblock hrest =>
    refine read_of_lines htext.lines_eq hblock.not_isTerminator hrest ?_ hne
    rwa [hheader.isTerminator_eq, if_pos rfl]
  | bare hname hfirst hblock hrest =>
    obtain ⟨hnot, hothers⟩ := List.forall_mem_cons.mp hblock.not_isTerminator
    refine read_of_lines htext.lines_eq hothers hrest ?_ hne
    rwa [hnot]

end Description

end Gridding
