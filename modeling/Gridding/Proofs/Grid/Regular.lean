import Gridding.Grid.Regular
import Gridding.Proofs.Grid.Accepted
import Gridding.Proofs.Region.Mosaic

/-!
# Regular grids

The cells of a regular grid are listed row by row, each with the ring of its corners and the image
of that ring. Since all rings are made of one table of corners, neighbours share theirs. In exact
arithmetic the rings tile a rectangle: every point of it is in some cell, and none is inside two.
-/

namespace Gridding

variable {ρ α β γ ε : Type}

/-! ## Tables by row and column -/

namespace Lattice

variable {rows columns r c : ℕ}

theorem placesOf_succ (rows columns : ℕ) : placesOf (rows + 1) columns =
    placesOf rows columns ++ (List.range columns).map fun c => (rows, c) := by
  rw [placesOf, List.range_succ, List.flatMap_append, List.flatMap_singleton]
  rfl

theorem length_placesOf (rows columns : ℕ) : (placesOf rows columns).length = rows * columns := by
  induction rows with
  | zero => rw [Nat.zero_mul]; rfl
  | succ rows ih =>
    rw [placesOf_succ, List.length_append, ih, List.length_map, List.length_range, Nat.succ_mul]

theorem mem_placesOf {p : ℕ × ℕ} : p ∈ placesOf rows columns ↔ p.1 < rows ∧ p.2 < columns := by
  obtain ⟨r, c⟩ := p
  simp [placesOf]

theorem nodup_placesOf (rows columns : ℕ) : (placesOf rows columns).Nodup := by
  induction rows with
  | zero => exact List.nodup_nil
  | succ rows ih =>
    rw [placesOf_succ]
    refine ih.append (List.nodup_range.map fun _ _ h => (Prod.mk.inj h).2) fun p hp hlast => ?_
    obtain ⟨c, -, rfl⟩ := List.mem_map.mp hlast
    exact lt_irrefl rows (mem_placesOf.mp hp).1

theorem getElem?_placesOf (hr : r < rows) (hc : c < columns) :
    (placesOf rows columns)[r * columns + c]? = some (r, c) := by
  induction rows with
  | zero => omega
  | succ rows ih =>
    rw [placesOf_succ]
    rcases Nat.lt_succ_iff_lt_or_eq.mp hr with hr | rfl
    · have hbefore : r * columns + c < (placesOf rows columns).length := by
        rw [length_placesOf]
        calc r * columns + c < (r + 1) * columns := by rw [Nat.succ_mul]; omega
          _ ≤ rows * columns := Nat.mul_le_mul_right columns hr
      rw [List.getElem?_append_left hbefore, ih hr]
    · rw [List.getElem?_append_right (by rw [length_placesOf]; omega), length_placesOf,
        Nat.add_sub_cancel_left, List.getElem?_map, List.getElem?_range hc]
      rfl

/-- The rows and columns of cells. -/
def cellPlaces (rows columns : ℕ) : List (Int × Int) :=
  (placesOf rows columns).map fun p => ((p.1 : Int), (p.2 : Int))

theorem length_cellPlaces (rows columns : ℕ) :
    (cellPlaces rows columns).length = rows * columns := by
  rw [cellPlaces, List.length_map, length_placesOf]

theorem nodup_cellPlaces (rows columns : ℕ) : (cellPlaces rows columns).Nodup := by
  refine (nodup_placesOf rows columns).map fun p q h => ?_
  obtain ⟨hrow, hcol⟩ := Prod.mk.inj h
  exact Prod.ext (Int.ofNat_inj.mp hrow) (Int.ofNat_inj.mp hcol)

theorem mem_cellPlaces {row col : Int} : (row, col) ∈ cellPlaces rows columns ↔
    (0 ≤ row ∧ row < rows) ∧ 0 ≤ col ∧ col < columns := by
  simp only [cellPlaces, List.mem_map, mem_placesOf, Prod.exists, Prod.mk.injEq]
  constructor
  · rintro ⟨r, c, ⟨hr, hc⟩, rfl, rfl⟩
    omega
  · rintro ⟨⟨hrow, hr⟩, hcol, hc⟩
    exact ⟨row.toNat, col.toNat, ⟨by omega, by omega⟩, Int.toNat_of_nonneg hrow,
      Int.toNat_of_nonneg hcol⟩

theorem places_cells [Zero α] (l : Lattice α) (polygon : List β → Geometry) (footprint : List γ → ρ)
    (planar : ℕ → ℕ → β) (image : ℕ → ℕ → γ) :
    (l.cells polygon footprint planar image).map (·.place) = cellPlaces l.rows l.columns := by
  rw [cells, List.map_map]
  rfl

variable [Add α] [Mul α] [Tally α]

/-- The entry of a table of what becomes of all corners is what becomes of the corner. -/
theorem entry_map_corners [Inhabited β] (l : Lattice α) (f : α × α → β) (hr : r ≤ l.rows)
    (hc : c ≤ l.columns) : l.entry (l.corners.map f).toArray r c = f (l.corner r c) := by
  have hplace := getElem?_placesOf (Nat.lt_succ_of_le hr) (Nat.lt_succ_of_le hc)
  rw [entry, Array.getD_eq_getD_getElem?, List.getElem?_toArray, corners, cornerPlaces,
    List.map_map, List.getElem?_map, hplace]
  rfl

theorem ringAround_entry [Inhabited β] (l : Lattice α) (f : α × α → β) (hr : r < l.rows)
    (hc : c < l.columns) : ringAround (l.entry (l.corners.map f).toArray) r c =
      (ringAround l.corner r c).map f := by
  simp only [ringAround, l.entry_map_corners f hr.le hc.le, l.entry_map_corners f hr.le hc,
    l.entry_map_corners f hr hc.le, l.entry_map_corners f hr hc, List.map_cons, List.map_nil]

end Lattice

/-! ## Cells of regular grids -/

namespace Grid

theorem ofCells_eq_ok [Region ρ α ε] {name : String} {cells : List (Cell ρ α)} {nx ny : Int}
    {extent : ρ} (hcount : (cells.length : Int) = nx * ny) (hplaces : (cells.map (·.place)).Nodup)
    (hextent : Region.union (cells.map (·.footprint)) = .ok extent) (system : CoordinateSystem)
    (spacing : Option (Spacing α)) (isIrregular : Bool) :
    ofCells name cells nx ny (.known system) spacing isIrregular =
      .ok ⟨name, nx, ny, cells, extent, spacing, isIrregular⟩ := by
  have hnone : repeatedPlace? [] (cells.map (·.place)) = none := by
    simp [repeatedPlace?_eq_none, hplaces]
  unfold ofCells
  rw [if_neg (not_not.mpr hcount), hnone, hextent]
  rfl

theorem cellAt_of_mem {g : Grid ρ α} (hplaces : (g.cells.map (·.place)).Nodup) {c : Cell ρ α}
    (hc : c ∈ g.cells) : g.cellAt (ε := ε) c.row c.col = .ok c := by
  have hfound : (g.cells.find? fun d => d.row = c.row && d.col = c.col) = some c := by
    rw [← List.head?_filter, filter_place hplaces hc]
    rfl
  rw [cellAt, hfound]

theorem cellAt_of_not_mem {g : Grid ρ α} {row col : Int}
    (h : (row, col) ∉ g.cells.map (·.place)) :
    g.cellAt (ε := ε) row col = .error (.noSuchCell g.name row col) := by
  have hnone : (g.cells.find? fun d => d.row = row && d.col = col) = none := by
    rw [List.find?_eq_none]
    intro d hd hsame
    rw [Bool.and_eq_true, decide_eq_true_iff, decide_eq_true_iff] at hsame
    exact h (List.mem_map.mpr ⟨d, hd, Prod.ext hsame.1 hsame.2⟩)
  rw [cellAt, hnone]

end Grid

/-! ## Rings and what they enclose -/

section Rings

variable [Field α] [LinearOrder α]

/-- Positive to the left of the way from `a` to `b`, negative to the right, zero on it. -/
def leftOf (a b p : α × α) : α := (b.1 - a.1) * (p.2 - a.2) - (b.2 - a.2) * (p.1 - a.1)

/-- How far to the left a point is of each edge of a closed ring. -/
def sides (ring : List (α × α)) (p : α × α) : List α :=
  (ring.zip ring.tail).map fun e => leftOf e.1 e.2 p

/-- A convex ring that runs counterclockwise has a point inside it or on it if the point is to the
right of no edge. -/
def Encloses (ring : List (α × α)) (p : α × α) : Prop := ∀ s ∈ sides ring p, 0 ≤ s

/-- It has the point inside it if that is to the left of all edges. -/
def HasInside (ring : List (α × α)) (p : α × α) : Prop := ∀ s ∈ sides ring p, 0 < s

/-- The closed ring around a rectangle, counterclockwise from its lower left corner. -/
def boxRing (x y x' y' : α) : List (α × α) := [(x, y), (x', y), (x', y'), (x, y'), (x, y)]

variable {x y x' y' : α}

omit [LinearOrder α] in
theorem sides_boxRing (p : α × α) : sides (boxRing x y x' y') p =
    [(x' - x) * (p.2 - y), (y' - y) * (x' - p.1), (x' - x) * (y' - p.2), (y' - y) * (p.1 - x)] := by
  simp only [boxRing, sides, leftOf, List.tail_cons, List.zip_cons_cons, List.zip_nil_right,
    List.map_cons, List.map_nil, List.cons.injEq, and_true]
  refine ⟨?_, ?_, ?_, ?_⟩ <;> ring

variable [IsStrictOrderedRing α] (hx : x < x') (hy : y < y') (p : α × α)

include hx hy

theorem encloses_boxRing_iff : Encloses (boxRing x y x' y') p ↔
    (x ≤ p.1 ∧ p.1 ≤ x') ∧ y ≤ p.2 ∧ p.2 ≤ y' := by
  simp only [Encloses, sides_boxRing, List.forall_mem_cons, List.not_mem_nil, false_implies,
    implies_true, and_true, mul_nonneg_iff_of_pos_left (sub_pos.mpr hx),
    mul_nonneg_iff_of_pos_left (sub_pos.mpr hy), sub_nonneg]
  tauto

theorem hasInside_boxRing_iff : HasInside (boxRing x y x' y') p ↔
    (x < p.1 ∧ p.1 < x') ∧ y < p.2 ∧ p.2 < y' := by
  simp only [HasInside, sides_boxRing, List.forall_mem_cons, List.not_mem_nil, false_implies,
    implies_true, and_true, mul_pos_iff_of_pos_left (sub_pos.mpr hx),
    mul_pos_iff_of_pos_left (sub_pos.mpr hy), sub_pos]
  tauto

end Rings

/-! ## Steps along a side -/

section Steps

variable [Field α] [LinearOrder α] [IsStrictOrderedRing α] {a d x : α}

theorem le_of_step_le (hd : 0 < d) {k l : ℕ} (h : k ≤ l) : a + k * d ≤ a + l * d := by
  gcongr

/-- Of equal steps along a side some one reaches over each number on it. -/
theorem exists_step_iff (hd : 0 < d) {n : ℕ} (hn : 0 < n) :
    (∃ k < n, a + k * d ≤ x ∧ x ≤ a + (k + 1 : ℕ) * d) ↔ a ≤ x ∧ x ≤ a + n * d := by
  constructor
  · rintro ⟨k, hk, hlow, hhigh⟩
    exact ⟨le_trans (le_add_of_nonneg_right (by positivity)) hlow,
      hhigh.trans (le_of_step_le hd hk)⟩
  · rintro ⟨hlow, hhigh⟩
    induction n with
    | zero => omega
    | succ n ih =>
      rcases le_or_gt x (a + n * d) with hbefore | hlast
      · rcases Nat.eq_zero_or_pos n with rfl | hn
        · refine ⟨0, Nat.one_pos, by simpa using hlow, hhigh⟩
        · obtain ⟨k, hk, hstep⟩ := ih hn hbefore
          exact ⟨k, hk.trans n.lt_succ_self, hstep⟩
      · exact ⟨n, n.lt_succ_self, hlast.le, hhigh⟩

theorem step_unique (hd : 0 < d) {k l : ℕ} (hk : a + k * d < x ∧ x < a + (k + 1 : ℕ) * d)
    (hl : a + l * d < x ∧ x < a + (l + 1 : ℕ) * d) : k = l := by
  have hle {i j : ℕ} (hi : a + i * d < x) (hj : x < a + (j + 1 : ℕ) * d) : i ≤ j := by
    by_contra! hlt
    exact absurd (hi.trans hj) (le_of_step_le hd hlt).not_gt
  exact le_antisymm (hle hk.1 hl.2) (hle hl.1 hk.2)

end Steps

/-! ## Regular grids as tilings -/

namespace Spacing

variable [Field α]

/-- The ring of the cell in a row and a column. -/
def cellRing (s : Spacing α) (row col : ℕ) : List (α × α) :=
  boxRing (s.x0 + col * s.dx) (s.y0 + row * s.dy) (s.x0 + (col + 1 : ℕ) * s.dx)
    (s.y0 + (row + 1 : ℕ) * s.dy)

theorem ringAround_corner [Tally α] [ExactTally α] (s : Spacing α) (columns rows row col : ℕ) :
    Lattice.ringAround (Lattice.corner ⟨columns, rows, s⟩) row col = s.cellRing row col := by
  simp only [Lattice.ringAround, Lattice.corner, cellRing, boxRing, ExactTally.ratio_eq,
    Nat.cast_one, div_one, Int.cast_natCast]

variable [LinearOrder α] [IsStrictOrderedRing α] (s : Spacing α) (hdx : 0 < s.dx) (hdy : 0 < s.dy)

include hdx hdy

theorem encloses_cellRing_iff (row col : ℕ) (p : α × α) : Encloses (s.cellRing row col) p ↔
    (s.x0 + col * s.dx ≤ p.1 ∧ p.1 ≤ s.x0 + (col + 1 : ℕ) * s.dx) ∧
      s.y0 + row * s.dy ≤ p.2 ∧ p.2 ≤ s.y0 + (row + 1 : ℕ) * s.dy :=
  encloses_boxRing_iff (by gcongr; exact col.lt_succ_self) (by gcongr; exact row.lt_succ_self) p

theorem hasInside_cellRing_iff (row col : ℕ) (p : α × α) : HasInside (s.cellRing row col) p ↔
    (s.x0 + col * s.dx < p.1 ∧ p.1 < s.x0 + (col + 1 : ℕ) * s.dx) ∧
      s.y0 + row * s.dy < p.2 ∧ p.2 < s.y0 + (row + 1 : ℕ) * s.dy :=
  hasInside_boxRing_iff (by gcongr; exact col.lt_succ_self) (by gcongr; exact row.lt_succ_self) p

/-- The cells enclose the points of a rectangle and no others. -/
theorem exists_cellRing_iff {rows columns : ℕ} (hrows : 0 < rows) (hcolumns : 0 < columns)
    (p : α × α) : (∃ row < rows, ∃ col < columns, Encloses (s.cellRing row col) p) ↔
      (s.x0 ≤ p.1 ∧ p.1 ≤ s.x0 + columns * s.dx) ∧ s.y0 ≤ p.2 ∧ p.2 ≤ s.y0 + rows * s.dy := by
  simp only [s.encloses_cellRing_iff hdx hdy]
  rw [← exists_step_iff hdx hcolumns, ← exists_step_iff hdy hrows]
  constructor
  · rintro ⟨row, hrow, col, hcol, hx, hy⟩
    exact ⟨⟨col, hcol, hx⟩, row, hrow, hy⟩
  · rintro ⟨⟨col, hcol, hx⟩, row, hrow, hy⟩
    exact ⟨row, hrow, col, hcol, hx, hy⟩

/-- No two cells have a point inside. -/
theorem eq_of_hasInside {row col row' col' : ℕ} {p : α × α} (h : HasInside (s.cellRing row col) p)
    (h' : HasInside (s.cellRing row' col') p) : row = row' ∧ col = col' := by
  rw [s.hasInside_cellRing_iff hdx hdy] at h h'
  exact ⟨step_unique hdy h.2 h'.2, step_unique hdx h.1 h'.1⟩

end Spacing

namespace Grid

section Cells

variable [Zero α] [Add α] [Mul α] [Tally α] [Inhabited α] [Inhabited γ] [Region ρ α ε]
  (polygon : List (α × α) → Geometry) (footprint : List γ → ρ)
  {project : List (α × α) → Except ProjectionError (List γ)} {image : α × α → γ}

/-- A regular grid whose corners all have images is built, with a cell for each row and column. -/
theorem exists_regularBy (hproject : ∀ ps, project ps = .ok (ps.map image))
    (hunion : ∀ rs : List ρ, ∃ u, Region.union rs = .ok u) (name : String) (nx ny : ℕ)
    (spacing : Spacing α) (system : CoordinateSystem) :
    ∃ g : Grid ρ α, regularBy polygon footprint project name nx ny spacing (.known system) = .ok g ∧
      g.name = name ∧ g.cells.map (·.place) = Lattice.cellPlaces ny nx ∧
      ∀ r < ny, ∀ c < nx, g.cells[r * nx + c]? = some
        ⟨polygon (Lattice.ringAround (Lattice.corner ⟨nx, ny, spacing⟩) r c),
          footprint ((Lattice.ringAround (Lattice.corner ⟨nx, ny, spacing⟩) r c).map image),
          r, c, 0, none⟩ := by
  let l : Lattice α := ⟨nx, ny, spacing⟩
  let cells := l.cells polygon footprint (l.entry l.corners.toArray)
    (l.entry (l.corners.map image).toArray)
  have hcells : cells.map (·.place) = Lattice.cellPlaces ny nx := l.places_cells _ _ _ _
  have hcount : (cells.length : Int) = nx * ny := by
    rw [← List.length_map (f := fun c : Cell ρ α => c.place), hcells, Lattice.length_cellPlaces,
      mul_comm, Nat.cast_mul]
  have hplaces : (cells.map (·.place)).Nodup := hcells ▸ Lattice.nodup_cellPlaces ny nx
  obtain ⟨u, hu⟩ := hunion (cells.map (·.footprint))
  refine ⟨⟨name, nx, ny, cells, u, some spacing, false⟩, ?_, rfl, hcells, fun r hr c hc => ?_⟩
  · have hnonneg : (decide ((nx : Int) < 0) || decide ((ny : Int) < 0)) = false := by simp
    simp only [regularBy, hnonneg, hproject, Except.mapError, Int.toNat_natCast]
    exact ofCells_eq_ok hcount hplaces hu system (some spacing) false
  · have hplanar := l.ringAround_entry id hr hc
    have himage := l.ringAround_entry image hr hc
    rw [List.map_id, List.map_id] at hplanar
    change (l.places.map _)[r * nx + c]? = _
    rw [List.getElem?_map, Lattice.places, Lattice.getElem?_placesOf hr hc, Option.map_some]
    simp only [hplanar, himage]
    rfl

end Cells

variable [Field α] [LinearOrder α] [IsStrictOrderedRing α] [Tally α] [ExactTally α] [Inhabited α]
  [Inhabited γ] [Region ρ α ε] (polygon : List (α × α) → Geometry) (footprint : List γ → ρ)
  {project : List (α × α) → Except ProjectionError (List γ)} (image : α × α → γ) (nx ny : ℕ)

/-- The cells of a grid by rows and columns, made of rings and their images, and what the rings
enclose. A place outside the table has no cell, and says so. -/
structure IsTiling (g : Grid ρ α) (s : Spacing α) : Prop where
  count : g.cells.length = nx * ny
  cell : ∀ r < ny, ∀ c < nx, ∃ cell, g.cells[r * nx + c]? = some cell ∧
    cell.row = r ∧ cell.col = c ∧
    cell.polygon = polygon (s.cellRing r c) ∧
    cell.footprint = footprint ((s.cellRing r c).map image) ∧ g.cellAt (ε := ε) r c = .ok cell
  no_other : ∀ row col : Int, ¬ ((0 ≤ row ∧ row < ny) ∧ 0 ≤ col ∧ col < nx) →
    g.cellAt (ε := ε) row col = .error (.noSuchCell g.name row col)
  /-- Neighbours in a row and in a column have the same corners in the plane and as images. -/
  shared : ∀ {δ : Type} (f : α × α → δ) (r c : ℕ),
    ((s.cellRing r c).map f)[1]? = ((s.cellRing r (c + 1)).map f)[0]? ∧
    ((s.cellRing r c).map f)[2]? = ((s.cellRing r (c + 1)).map f)[3]? ∧
    ((s.cellRing r c).map f)[3]? = ((s.cellRing (r + 1) c).map f)[0]? ∧
    ((s.cellRing r c).map f)[2]? = ((s.cellRing (r + 1) c).map f)[1]?
  rectangle : ∀ p, (∃ r < ny, ∃ c < nx, Encloses (s.cellRing r c) p) ↔
    (s.x0 ≤ p.1 ∧ p.1 ≤ s.x0 + nx * s.dx) ∧ s.y0 ≤ p.2 ∧ p.2 ≤ s.y0 + ny * s.dy
  apart : ∀ p r c r' c', HasInside (s.cellRing r c) p → HasInside (s.cellRing r' c') p →
    r = r' ∧ c = c'

/-- A regular grid of some columns and rows, each of some width, is a tiling of its rectangle. -/
theorem regularBy_tiles (s : Spacing α) (hnx : 0 < nx) (hny : 0 < ny) (hdx : 0 < s.dx)
    (hdy : 0 < s.dy) (hproject : ∀ ps, project ps = .ok (ps.map image))
    (hunion : ∀ rs : List ρ, ∃ u, Region.union rs = .ok u) (name : String)
    (system : CoordinateSystem) :
    ∃ g : Grid ρ α, regularBy polygon footprint project name nx ny s (.known system) = .ok g ∧
      g.name = name ∧ g.IsTiling (ε := ε) polygon footprint image nx ny s := by
  obtain ⟨g, hg, hname, hplaces, hcells⟩ := exists_regularBy polygon footprint
    hproject hunion name nx ny s system
  have hnodup : (g.cells.map (·.place)).Nodup := hplaces ▸ Lattice.nodup_cellPlaces ny nx
  refine ⟨g, hg, hname, ?_, fun r hr c hc => ?_, fun row col hout => ?_,
    fun f r c => ⟨rfl, rfl, rfl, rfl⟩, s.exists_cellRing_iff hdx hdy hny hnx,
    fun p r c r' c' => s.eq_of_hasInside hdx hdy⟩
  · rw [← List.length_map (f := fun c : Cell ρ α => c.place), hplaces, Lattice.length_cellPlaces,
      mul_comm]
  · have hcell := hcells r hr c hc
    rw [s.ringAround_corner] at hcell
    exact ⟨_, hcell, rfl, rfl, rfl, rfl, cellAt_of_mem hnodup (List.mem_of_getElem? hcell)⟩
  · refine cellAt_of_not_mem fun hmem => ?_
    rw [hplaces, Lattice.mem_cellPlaces] at hmem
    exact hout hmem

open Mosaic in
/-- A grid of three columns and two rows whose images are one unit further to the east. -/
theorem regularBy_tiles_shifted :
    let box (ring : List (ℚ × ℚ)) : Mosaic := match ring with
      | [a, _, b, _, _] => rectangle ⌊a.1⌋ ⌊a.2⌋ ⌊b.1⌋ ⌊b.2⌋
      | _ => ⟨∅⟩
    let east (p : ℚ × ℚ) : ℚ × ℚ := (p.1 + 1, p.2)
    ∃ g : Grid Mosaic ℚ, regularBy (fun ring => .polygon [ring.map fun p =>
        ⟨⟨floatOfInt ⌊p.1⌋, floatOfInt ⌊p.2⌋⟩, none⟩]) box (fun ps => .ok (ps.map east)) "G" 3 2
        ⟨1, 2, -1, 0⟩ (.known .lonLat) = .ok g ∧ g.cells.length = 6 ∧
      (∃ cell, g.cells[5]? = some cell ∧ cell.footprint = rectangle 2 2 3 4 ∧
        g.cellAt (ε := Empty) 1 2 = .ok cell) ∧
      g.cellAt (ε := Empty) 2 1 = .error (.noSuchCell "G" 2 1) := by
  intro box east
  obtain ⟨g, hg, hname, htiling⟩ := regularBy_tiles (ε := Empty) _ box east 3 2
    ⟨1, 2, -1, 0⟩ (by decide) (by decide) (by decide) (by decide) (fun _ => rfl)
    (fun rs => ⟨_, rfl⟩) "G" .lonLat
  obtain ⟨cell, hcell, -, -, -, hfootprint, hat⟩ := htiling.cell 1 (by decide) 2 (by decide)
  refine ⟨g, hg, htiling.count, ⟨cell, hcell, hfootprint.trans ?_, hat⟩, ?_⟩
  · decide +kernel
  · rw [htiling.no_other 2 1 (by decide), hname]

end Grid

end Gridding
