import Gridding.Allocation.Engine
import Gridding.Proofs.Numeric.Exact
import Gridding.Proofs.Region.Spatial
import Mathlib

/-!
# Mosaics

A mosaic is a finite set of the corners, the open edges and the open squares of the unit lattice, an
exact stand-in for footprints. A piece is named by twice the coordinates of its centre, so that an
odd coordinate means that it extends in that direction. Rectangles are closed; one without width is
a line, and one without width and height a point.
-/

namespace Gridding

structure Mosaic where
  pieces : Finset (ℤ × ℤ)
  deriving DecidableEq

namespace Mosaic

def pieceDimension (p : ℤ × ℤ) : ℤ := p.1 % 2 + p.2 % 2

/-- The coordinates of the pieces of a closed interval. -/
def interval (x y : ℤ) : Finset ℤ := (Finset.range (2 * (y - x) + 1).toNat).image fun k : ℕ => 2 * x + k

/-- The closed rectangle between two corners. -/
def rectangle (x₀ y₀ x₁ y₁ : ℤ) : Mosaic := ⟨interval x₀ x₁ ×ˢ interval y₀ y₁⟩

/-- The greatest dimension of a piece, `-1` if there is none. -/
def dimension (m : Mosaic) : ℤ :=
  if ∃ p ∈ m.pieces, pieceDimension p = 2 then 2
  else if ∃ p ∈ m.pieces, pieceDimension p = 1 then 1
  else if m.pieces.Nonempty then 0
  else -1

/-- The number of pieces of a dimension. -/
def content (d : ℤ) (s : Finset (ℤ × ℤ)) : ℚ := ((s.filter fun p => pieceDimension p = d).card : ℚ)

/-- The number of pieces of a dimension, if there is none of a greater one. -/
def measure (d : ℤ) (m : Mosaic) : ℚ := if m.dimension ≤ d then content d m.pieces else 0

/-- A piece with its boundary. -/
def pieceBox (p : ℤ × ℤ) : Box ℤ := ⟨p.1 - p.1 % 2, p.2 - p.2 % 2, p.1 + p.1 % 2, p.2 + p.2 % 2⟩

/-- Is there no line between two mosaics that leaves one of them strictly on either side? -/
def isNear (a b : Mosaic) : Bool :=
  (∃ p ∈ a.pieces, ∃ q ∈ b.pieces, (pieceBox p).west ≤ (pieceBox q).east) &&
    (∃ p ∈ a.pieces, ∃ q ∈ b.pieces, (pieceBox q).west ≤ (pieceBox p).east) &&
    (∃ p ∈ a.pieces, ∃ q ∈ b.pieces, (pieceBox p).south ≤ (pieceBox q).north) &&
    (∃ p ∈ a.pieces, ∃ q ∈ b.pieces, (pieceBox q).south ≤ (pieceBox p).north)

instance : Region Mosaic ℚ Empty where
  dimension := dimension
  isNear := isNear
  meets a b := (a.pieces ∩ b.pieces).Nonempty
  meet a b := .ok ⟨a.pieces ∩ b.pieces⟩
  measure := measure
  covers a b := b.pieces.Nonempty ∧ b.pieces ⊆ a.pieces
  union ms := .ok ⟨(ms.map pieces).foldr (· ∪ ·) ∅⟩
  parts m := [m]
  isPoint m := m.pieces.card = 1 ∧ m.dimension = 0

/-! ## Bounds -/

/-- The least box around the pieces. -/
noncomputable def box (m : Mosaic) : Box ℤ :=
  if h : m.pieces.Nonempty then
    ⟨m.pieces.inf' h fun p => (pieceBox p).west, m.pieces.inf' h fun p => (pieceBox p).south,
      m.pieces.sup' h fun p => (pieceBox p).east, m.pieces.sup' h fun p => (pieceBox p).north⟩
  else ⟨0, 0, 0, 0⟩

theorem isEmpty_iff (m : Mosaic) : Region.isEmpty m = true ↔ ¬ m.pieces.Nonempty := by
  change decide (m.dimension < 0) = true ↔ _
  rw [decide_eq_true_iff]
  unfold dimension
  constructor
  · intro h hne
    simp only [hne, if_true] at h
    split at h
    · omega
    · split at h <;> omega
  · intro h
    have hnone : m.pieces = ∅ := Finset.not_nonempty_iff_eq_empty.mp h
    simp [hnone]

theorem isEmpty_eq_false_iff (m : Mosaic) : Region.isEmpty m = false ↔ m.pieces.Nonempty := by
  rw [← not_iff_not, ← isEmpty_iff, Bool.not_eq_false]

theorem box_of_nonempty {m : Mosaic} (h : m.pieces.Nonempty) :
    box m = ⟨m.pieces.inf' h fun p => (pieceBox p).west, m.pieces.inf' h fun p => (pieceBox p).south,
      m.pieces.sup' h fun p => (pieceBox p).east, m.pieces.sup' h fun p => (pieceBox p).north⟩ :=
  dif_pos h

theorem pieceBox_within {m : Mosaic} {p : ℤ × ℤ} (h : p ∈ m.pieces) :
    (pieceBox p).Within (box m) := by
  rw [box_of_nonempty ⟨p, h⟩]
  exact ⟨Finset.inf'_le _ h, Finset.le_sup' (fun p => (pieceBox p).east) h, Finset.inf'_le _ h,
    Finset.le_sup' (fun p => (pieceBox p).north) h⟩

theorem box_within_of_subset {a b : Mosaic} (ha : a.pieces.Nonempty) (h : a.pieces ⊆ b.pieces) :
    (box a).Within (box b) := by
  rw [box_of_nonempty ha, box_of_nonempty (ha.mono h)]
  exact ⟨Finset.inf'_mono _ h ha, Finset.sup'_mono _ h ha, Finset.inf'_mono _ h ha,
    Finset.sup'_mono _ h ha⟩

theorem boxed : Region.Boxed box where
  isNear_of_meets a b ha hb h := by
    have ha := (isEmpty_eq_false_iff a).mp ha
    have hb := (isEmpty_eq_false_iff b).mp hb
    rw [box_of_nonempty ha, box_of_nonempty hb] at h
    obtain ⟨h₁, h₂, h₃, h₄⟩ := h
    simp only [Finset.inf'_le_iff, Finset.le_sup'_iff] at h₁ h₂ h₃ h₄
    change isNear a b = true
    simp only [isNear, Bool.and_eq_true, decide_eq_true_eq]
    obtain ⟨q, hq, p, hp, h₁⟩ := h₁
    obtain ⟨q', hq', p', hp', h₃⟩ := h₃
    exact ⟨⟨⟨⟨p, hp, q, hq, h₁⟩, h₂⟩, p', hp', q', hq', h₃⟩, h₄⟩
  meet_of_apart a b h := by
    refine ⟨_, rfl, (isEmpty_iff _).mpr ?_⟩
    rintro ⟨p, hp⟩
    obtain ⟨ha, hb⟩ := Finset.mem_inter.mp hp
    -- a piece that lies in both shows that none of the three reasons holds
    have hself : (pieceBox p).Meets (pieceBox p) := by
      simp only [Box.Meets, pieceBox]
      omega
    have hmeets := ((hself.of_within (pieceBox_within ha)).symm.of_within (pieceBox_within hb)).symm
    rcases h with h | h | h
    · exact (isEmpty_iff a).mp h ⟨p, ha⟩
    · exact (isEmpty_iff b).mp h ⟨p, hb⟩
    · exact h hmeets
  within_of_meet a b p h hp := by
    cases h
    have hne := (isEmpty_eq_false_iff _).mp hp
    exact ⟨box_within_of_subset hne Finset.inter_subset_left,
      box_within_of_subset hne Finset.inter_subset_right⟩

/-! ## Contents -/

theorem dimension_mono {a b : Mosaic} (h : a.pieces ⊆ b.pieces) : a.dimension ≤ b.dimension := by
  have hpiece (k : ℤ) : (∃ p ∈ a.pieces, pieceDimension p = k) →
      ∃ p ∈ b.pieces, pieceDimension p = k := fun ⟨p, hp, hk⟩ => ⟨p, h hp, hk⟩
  have hne : a.pieces.Nonempty → b.pieces.Nonempty := fun ha => ha.mono h
  have h₂ := hpiece 2
  have h₁ := hpiece 1
  unfold dimension
  split_ifs <;> first
    | omega
    | exact absurd (h₂ ‹_›) ‹_›
    | exact absurd (h₁ ‹_›) ‹_›
    | exact absurd (hne ‹_›) ‹_›

theorem isContent_content (d : ℤ) (s : Finset (ℤ × ℤ)) : IsContent fun x => content d (s ⊓ x) where
  nonneg x := Nat.cast_nonneg _
  add x y hxy := by
    have hdisjoint : Disjoint ((s ⊓ x).filter fun p => pieceDimension p = d)
        ((s ⊓ y).filter fun p => pieceDimension p = d) :=
      Finset.disjoint_filter_filter (hxy.mono inf_le_right inf_le_right)
    unfold content
    rw [inf_sup_left, Finset.sup_eq_union, Finset.filter_union, Finset.card_union_of_disjoint
      hdisjoint, Nat.cast_add]

theorem measured : Region.Measured Mosaic.pieces content where
  meet_place a b := ⟨_, rfl, rfl⟩
  union_place ms u h := by
    cases h
    rfl
  isEmpty_iff m := by
    rw [isEmpty_iff, Finset.not_nonempty_iff_eq_empty]
    rfl
  disjoint_of_far a b h := by
    obtain ⟨p, hp, hempty⟩ := boxed.lossless.meet_of_far a b h
    cases hp
    rw [isEmpty_iff, Finset.not_nonempty_iff_eq_empty] at hempty
    exact Finset.disjoint_iff_inter_eq_empty.mpr hempty
  dimension_mono a b h := dimension_mono h
  measure_eq d m h := if_pos h
  isContent d m _ := isContent_content d m.pieces

/-- The pieces that have a piece in their closure. -/
def star (p : ℤ × ℤ) : Finset (ℤ × ℤ) :=
  let around (x : ℤ) : Finset ℤ := if x % 2 = 0 then {x - 1, x, x + 1} else {x}
  around p.1 ×ˢ around p.2

def interior (m : Mosaic) : Finset (ℤ × ℤ) := m.pieces.filter fun p => star p ⊆ m.pieces

theorem planar : Region.Planar Mosaic.pieces interior content where
  dimension_le m := by
    change m.dimension ≤ 2
    unfold dimension
    split_ifs <;> omega
  interior_le m := Finset.filter_subset _ _
  boundary_null m := by
    have hnone : ((m.pieces \ interior m).filter fun p => pieceDimension p = 2) = ∅ := by
      refine Finset.filter_eq_empty_iff.mpr fun p hp hdim => ?_
      obtain ⟨hp, hout⟩ := Finset.mem_sdiff.mp hp
      -- an open square is all there is around it
      have hodd : ¬ p.1 % 2 = 0 ∧ ¬ p.2 % 2 = 0 := by
        unfold pieceDimension at hdim
        omega
      refine hout (Finset.mem_filter.mpr ⟨hp, ?_⟩)
      simp only [star, if_neg hodd.1, if_neg hodd.2, Finset.singleton_product_singleton,
        Finset.singleton_subset_iff]
      exact hp
    unfold content
    rw [hnone]
    rfl

theorem spatial : Region.Spatial Mosaic.pieces where
  toPlaced := measured.toPlaced
  parts_place m := (sup_bot_eq m.pieces).symm
  isAtom m h _ := by
    obtain ⟨hcard, -⟩ := of_decide_eq_true h
    exact Finset.isAtom_iff.mpr (Finset.card_eq_one.mp hcard)
  meets_iff a b := by
    change decide (a.pieces ∩ b.pieces).Nonempty = true ↔ _
    rw [decide_eq_true_iff, Finset.not_disjoint_iff_nonempty_inter]
  covers_iff a b := by
    change decide (b.pieces.Nonempty ∧ b.pieces ⊆ a.pieces) = true ↔ _
    rw [decide_eq_true_iff, isEmpty_eq_false_iff]
  measure_nonneg d m := by
    change 0 ≤ measure d m
    unfold measure content
    split
    · exact Nat.cast_nonneg _
    · exact le_rfl
  measure_of_isEmpty d m h := by
    have hnone : m.pieces = ∅ := Finset.not_nonempty_iff_eq_empty.mp ((isEmpty_iff m).mp h)
    change measure d m = 0
    simp [measure, content, hnone]

theorem clipping : Region.Clipping Mosaic where
  meet_of_covers a b h := by
    obtain ⟨-, hsub⟩ := of_decide_eq_true h
    exact congrArg (fun s => Except.ok (Mosaic.mk s)) (Finset.inter_eq_left.mpr hsub)
  shared_comm d a b := by
    change measure d ⟨a.pieces ∩ b.pieces⟩ = measure d ⟨b.pieces ∩ a.pieces⟩
    rw [Finset.inter_comm]
  measure_of_isPoint p h _ := by
    obtain ⟨hcard, hdim⟩ := of_decide_eq_true h
    have hall : (p.pieces.filter fun x => pieceDimension x = 0) = p.pieces := by
      refine Finset.filter_true_of_mem fun x hx => ?_
      have hsmall : ¬ (pieceDimension x = 1 ∨ pieceDimension x = 2) := by
        rintro (hone | htwo)
        · have hsome : ∃ y ∈ p.pieces, pieceDimension y = 1 := ⟨x, hx, hone⟩
          simp only [dimension, hsome, if_true] at hdim
          split at hdim <;> cases hdim
        · have hsome : ∃ y ∈ p.pieces, pieceDimension y = 2 := ⟨x, hx, htwo⟩
          simp only [dimension, hsome, if_true] at hdim
          cases hdim
      unfold pieceDimension at hsmall ⊢
      omega
    change measure 0 p = 1
    rw [measure, if_pos hdim.le, content, hall, hcard, Nat.cast_one]

/-! ## Lines that run along themselves -/

/-- A mosaic that is run through several times. Its length is that of all laps, but what it has in
common with another is run through once. -/
structure Laps where
  mosaic : Mosaic
  laps : ℕ

instance : Region Laps ℚ Empty where
  dimension l := Region.dimension l.mosaic
  isNear a b := Region.isNear a.mosaic b.mosaic
  meets a b := Region.meets a.mosaic b.mosaic
  meet a b := .ok ⟨⟨a.mosaic.pieces ∩ b.mosaic.pieces⟩, 1⟩
  measure d l := if d = 1 then l.laps * Region.measure 1 l.mosaic else Region.measure d l.mosaic
  covers a b := Region.covers a.mosaic b.mosaic
  union ls := .ok ⟨⟨(ls.map fun l => l.mosaic.pieces).foldr (· ∪ ·) ∅⟩, 1⟩
  parts l := [l]
  isPoint l := Region.isPoint l.mosaic

theorem Laps.spatial : Region.Spatial fun l : Laps => l.mosaic.pieces where
  meet_place a b := ⟨_, rfl, rfl⟩
  union_place ls u h := by
    cases h
    rfl
  isEmpty_iff l := Mosaic.spatial.isEmpty_iff l.mosaic
  disjoint_of_far a b := Mosaic.spatial.disjoint_of_far a.mosaic b.mosaic
  parts_place l := (sup_bot_eq l.mosaic.pieces).symm
  isAtom l := Mosaic.spatial.isAtom l.mosaic
  meets_iff a b := Mosaic.spatial.meets_iff a.mosaic b.mosaic
  covers_iff a b := Mosaic.spatial.covers_iff a.mosaic b.mosaic
  measure_nonneg d l := by
    change 0 ≤ if d = 1 then l.laps * Region.measure 1 l.mosaic else Region.measure d l.mosaic
    split
    · exact mul_nonneg (Nat.cast_nonneg _) (Mosaic.spatial.measure_nonneg 1 l.mosaic)
    · exact Mosaic.spatial.measure_nonneg d l.mosaic
  measure_of_isEmpty d l h := by
    have hnone (d : Int) : Region.measure d l.mosaic = 0 :=
      Mosaic.spatial.measure_of_isEmpty d l.mosaic h
    change (if d = 1 then l.laps * Region.measure 1 l.mosaic else Region.measure d l.mosaic) = 0
    rw [hnone, hnone, mul_zero, ite_self]

/-! ## Regions of several parts -/

/-- Mosaics taken together, some of which may be empty. -/
structure Cluster where
  members : List Mosaic

/-- All that the members take up. -/
def Cluster.whole (c : Cluster) : Mosaic := ⟨(c.members.map pieces).foldr (· ∪ ·) ∅⟩

/-- A single member is a point if it is one dot, or nothing. -/
instance : Region Cluster ℚ Empty where
  dimension c := Region.dimension c.whole
  isNear a b := Region.isNear a.whole b.whole
  meets a b := Region.meets a.whole b.whole
  meet a b := .ok ⟨a.members.map fun m => ⟨m.pieces ∩ b.whole.pieces⟩⟩
  measure d c := Region.measure d c.whole
  covers a b := Region.covers a.whole b.whole
  union cs := .ok ⟨cs.map Cluster.whole⟩
  parts c := c.members.map fun m => ⟨[m]⟩
  isPoint c :=
    match c.members with
    | [m] => Region.isEmpty m || Region.isPoint m
    | _ => false

namespace Cluster

theorem pieces_whole (c : Cluster) : c.whole.pieces = cover (c.members.map pieces) := rfl

theorem whole_singleton (m : Mosaic) : (Cluster.mk [m]).whole = m :=
  congrArg Mosaic.mk (sup_bot_eq m.pieces)

theorem pieces_whole_meet (a b : Cluster) :
    (Cluster.mk (a.members.map fun m => ⟨m.pieces ∩ b.whole.pieces⟩)).whole.pieces =
      a.whole.pieces ∩ b.whole.pieces := by
  have hcover := cover_map_inf (a.members.map pieces) b.whole.pieces
  rw [List.map_map] at hcover
  rw [pieces_whole, List.map_map]
  exact hcover

/-- A point that is not empty is one dot. -/
theorem isPoint_whole {c : Cluster} (h : Region.isPoint c = true) (hne : Region.isEmpty c = false) :
    Region.isPoint c.whole = true := by
  obtain ⟨members⟩ := c
  match members, h, hne with
  | [m], h, hne =>
    change Region.isEmpty (Cluster.mk [m]).whole = false at hne
    rw [whole_singleton] at hne ⊢
    change (Region.isEmpty m || Region.isPoint m) = true at h
    rwa [hne, Bool.false_or] at h

theorem spatial : Region.Spatial fun c : Cluster => c.whole.pieces where
  meet_place a b := ⟨_, rfl, pieces_whole_meet a b⟩
  union_place cs u h := by
    cases h
    rw [pieces_whole, List.map_map]
    rfl
  isEmpty_iff c := Mosaic.spatial.isEmpty_iff c.whole
  disjoint_of_far a b := Mosaic.spatial.disjoint_of_far a.whole b.whole
  parts_place c := by
    change _ = cover ((c.members.map fun m => Cluster.mk [m]).map fun p => p.whole.pieces)
    simp only [List.map_map, Function.comp_def, whole_singleton]
    rfl
  isAtom c h hne := Mosaic.spatial.isAtom c.whole (isPoint_whole h hne) hne
  meets_iff a b := Mosaic.spatial.meets_iff a.whole b.whole
  covers_iff a b := Mosaic.spatial.covers_iff a.whole b.whole
  measure_nonneg d c := Mosaic.spatial.measure_nonneg d c.whole
  measure_of_isEmpty d c := Mosaic.spatial.measure_of_isEmpty d c.whole

theorem clipping : Region.Clipping Cluster where
  meet_of_covers a b h := by
    obtain ⟨-, hsub⟩ := of_decide_eq_true h
    have hmembers : b.members.map (fun m => Mosaic.mk (m.pieces ∩ a.whole.pieces)) = b.members := by
      refine (List.map_congr_left fun m hm => ?_).trans (List.map_id b.members)
      have hm : m.pieces ⊆ b.whole.pieces := le_cover (List.mem_map_of_mem hm)
      exact congrArg Mosaic.mk (Finset.inter_eq_left.mpr (hm.trans hsub))
    exact congrArg (fun ms => Except.ok (Cluster.mk ms)) hmembers
  shared_comm d a b := by
    have hsame : (Cluster.mk (a.members.map fun m => ⟨m.pieces ∩ b.whole.pieces⟩)).whole =
        (Cluster.mk (b.members.map fun m => ⟨m.pieces ∩ a.whole.pieces⟩)).whole :=
      congrArg Mosaic.mk (((pieces_whole_meet a b).trans (Finset.inter_comm _ _)).trans
        (pieces_whole_meet b a).symm)
    exact congrArg (Mosaic.measure d) hsame
  measure_of_isPoint p h hne :=
    Mosaic.clipping.measure_of_isPoint p.whole (isPoint_whole h hne) hne

end Cluster

/-! ## Examples of shapes, grids and datasets -/

/-- A shape that takes up a mosaic. -/
def shape (m : Mosaic) : Shape Mosaic := ⟨"S", m, none⟩

/-- The unit squares with corners at integers from the origin on, row after row. -/
def squares (nx ny : ℕ) : List (Cell Mosaic ℚ) :=
  (List.range ny).flatMap fun row => (List.range nx).map fun col =>
    ⟨default, rectangle col row (col + 1) (row + 1), row, col, 0, none⟩

/-- The grid of these squares. -/
def grid (nx ny : ℕ) : Grid Mosaic ℚ :=
  ⟨"unit", nx, ny, squares nx ny,
    ⟨((squares nx ny).map fun c => c.footprint.pieces).foldr (· ∪ ·) ∅⟩, none, false⟩

/-- The grid of the given cells, one to a row. -/
def stack {ρ : Type} [Region ρ ℚ Empty] (rs : List ρ) : Grid ρ ℚ :=
  ⟨"stack", 1, rs.length, rs.zipIdx.map fun r => ⟨default, r.1, r.2, 0, 0, none⟩,
    match Region.union rs with
      | .ok u => u
      | .error e => e.elim, none, true⟩

/-- Two rectangles side by side, the left one twice as dense as the right one. -/
def areas : Dataset Mosaic ℚ := ⟨[⟨rectangle 0 0 1 1, 2⟩, ⟨rectangle 1 0 3 1, 1⟩], 2⟩

/-- An upright line from the lower side of the grid on. -/
def line (x height : ℤ) : Dataset Mosaic ℚ := ⟨[⟨rectangle x 0 x height, 1⟩], 1⟩

end Mosaic
end Gridding
