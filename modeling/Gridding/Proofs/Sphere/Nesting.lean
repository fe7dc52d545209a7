import Gridding.Sphere.Measure
import Gridding.Proofs.Numeric.Sums

/-!
# Measures of nested collections

A geometry is made of polygons, lines and points, in any nest of collections. Its area is the sum
over all its polygons. Its length is the sum over all its lines but those that lie deeper than in a
multi-line among its parts, and its points are counted only if they are parts themselves, with empty
ones among them. So a nest of collections and the flat collection of what it is made of can differ in
length and in number of points.

Areas and lengths are those of exact numbers. In doubles the sums are the same but for rounding.
-/

namespace Gridding

namespace Geometry

section Contents

def isAtom : Geometry → Bool
  | .collection _ _ => false
  | _ => true

def rings? : Geometry → Option (List (List Vertex))
  | .polygon rings => some rings
  | _ => none

def path? : Geometry → Option (List Vertex)
  | .lineString vs => some vs
  | .linearRing vs => some vs
  | _ => none

/-- The place of a point that is not empty. -/
def place? : Geometry → Option Vertex
  | .point v => v
  | _ => none

def isEmptyPoint : Geometry → Bool
  | .point none => true
  | _ => false

def polygons (g : Geometry) : List (List (List Vertex)) := g.atoms.filterMap rings?

def lines (g : Geometry) : List (List Vertex) := g.atoms.filterMap path?

def places (g : Geometry) : List Vertex := g.atoms.filterMap place?

/-- All that a geometry is made of, in one collection. -/
def flattened (g : Geometry) : Geometry := .collection .mixed g.atoms

/-- A measure is the sum over what a geometry is made of, and it stays the same if all of that is put
into one collection. -/
def SeesThrough {β : Type} (measure total : Geometry → β) (g : Geometry) : Prop :=
  measure g = total g ∧ measure g.flattened = measure g

/-- A multi-geometry holds geometries of its own kind only. -/
inductive Proper : Geometry → Prop
  | atom {g : Geometry} (h : g.isAtom) : Proper g
  | points {ps : List Geometry} (h : ∀ p ∈ ps, p.isPoint) : Proper (.collection .points ps)
  | lines {ps : List Geometry} (h : ∀ p ∈ ps, p.path?.isSome) : Proper (.collection .lines ps)
  | polygons {ps : List Geometry} (h : ∀ p ∈ ps, p.rings?.isSome) :
      Proper (.collection .polygons ps)
  | mixed {ps : List Geometry} (h : ∀ p ∈ ps, Proper p) : Proper (.collection .mixed ps)

/-- The lines in a part that lie deeper than in a multi-line. -/
def linesBelow : Geometry → List (List Vertex)
  | .collection .lines _ => []
  | .collection _ ps => (atomsOfList ps).filterMap path?
  | _ => []

/-- The points in a part that are not the part itself, empty or not. -/
def pointsBelow : Geometry → List Geometry
  | .collection _ ps => (atomsOfList ps).filter isPoint
  | _ => []

def buriedLines (g : Geometry) : List (List Vertex) := g.parts.flatMap linesBelow

def buriedPoints (g : Geometry) : List Geometry := g.parts.flatMap pointsBelow

end Contents

section Atoms

variable {g a p : Geometry}

/-- What holds of a collection if it holds of its parts, and of all that is no collection, holds of
every geometry. -/
@[elab_as_elim]
theorem induction_on_parts {motive : Geometry → Prop} (point : ∀ v, motive (.point v))
    (lineString : ∀ vs, motive (.lineString vs)) (linearRing : ∀ vs, motive (.linearRing vs))
    (polygon : ∀ rings, motive (.polygon rings))
    (collection : ∀ family ps, (∀ p ∈ ps, motive p) → motive (.collection family ps)) :
    ∀ g, motive g
  | .point v => point v
  | .lineString vs => lineString vs
  | .linearRing vs => linearRing vs
  | .polygon rings => polygon rings
  | .collection family ps => collection family ps fun p _ =>
    induction_on_parts point lineString linearRing polygon collection p

theorem atoms_of_isAtom (h : g.isAtom) : g.atoms = [g] := by
  cases g with
  | collection family ps => cases h
  | _ => rfl

theorem parts_of_isAtom (h : g.isAtom) : g.parts = [g] := by
  cases g with
  | collection family ps => cases h
  | _ => rfl

theorem isAtom_of_isPoint (h : g.isPoint) : g.isAtom := by
  cases g with
  | point v => rfl
  | _ => cases h

theorem isAtom_of_rings?_isSome (h : g.rings?.isSome) : g.isAtom := by
  cases g with
  | polygon rings => rfl
  | _ => cases h

theorem isAtom_of_path?_isSome (h : g.path?.isSome) : g.isAtom := by
  cases g with
  | lineString vs => rfl
  | linearRing vs => rfl
  | _ => cases h

theorem path?_eq_of_isSome (h : g.path?.isSome) : g.path? = some g.atomVertices := by
  cases g with
  | lineString vs => rfl
  | linearRing vs => rfl
  | _ => cases h

theorem Proper.of_mem_parts (h : g.Proper) (hp : p ∈ g.parts) : p.Proper := by
  cases h with
  | atom h =>
    rw [parts_of_isAtom h, List.mem_singleton] at hp
    exact .atom (hp ▸ h)
  | points h => exact .atom (isAtom_of_isPoint (h p hp))
  | lines h => exact .atom (isAtom_of_path?_isSome (h p hp))
  | polygons h => exact .atom (isAtom_of_rings?_isSome (h p hp))
  | mixed h => exact h p hp

theorem atomsOfList_eq (gs : List Geometry) : atomsOfList gs = gs.flatMap atoms := by
  induction gs with
  | nil => rfl
  | cons g gs ih => rw [atomsOfList, ih, List.flatMap_cons]

theorem atoms_collection (family : Family) (ps : List Geometry) :
    (collection family ps).atoms = ps.flatMap atoms := by
  rw [atoms, atomsOfList_eq]

theorem atoms_eq_flatMap_parts (g : Geometry) : g.atoms = g.parts.flatMap atoms := by
  cases g with
  | collection family ps => exact atoms_collection family ps
  | _ => simp [parts]

theorem isAtom_of_mem_atoms (h : a ∈ g.atoms) : a.isAtom := by
  induction g using induction_on_parts with
  | point v => exact List.mem_singleton.mp h ▸ rfl
  | lineString vs => exact List.mem_singleton.mp h ▸ rfl
  | linearRing vs => exact List.mem_singleton.mp h ▸ rfl
  | polygon rings => exact List.mem_singleton.mp h ▸ rfl
  | collection family ps ih =>
    rw [atoms_collection] at h
    obtain ⟨p, hp, ha⟩ := List.mem_flatMap.mp h
    exact ih p hp ha

theorem atoms_flattened (g : Geometry) : g.flattened.atoms = g.atoms := by
  rw [flattened, atoms_collection,
    List.flatMap_congr fun a ha => atoms_of_isAtom (isAtom_of_mem_atoms ha)]
  exact List.flatMap_singleton' _

theorem parts_flattened (g : Geometry) : g.flattened.parts = g.atoms := rfl

theorem isEmpty_flattened (g : Geometry) : g.flattened.isEmpty = g.isEmpty := by
  rw [isEmpty, isEmpty, atoms_flattened]

theorem proper_flattened (g : Geometry) : g.flattened.Proper :=
  .mixed fun _ ha => .atom (isAtom_of_mem_atoms ha)

end Atoms

section Area

variable {α : Type} {g : Geometry}

theorem sumPolygonsOfList_eq [AddMonoid α] (size : List (List Vertex) → α) (sum : α)
    (gs : List Geometry) :
    sumPolygonsOfList size sum gs = sum + (gs.map (sumPolygons size)).sum := by
  induction gs generalizing sum with
  | nil => rw [sumPolygonsOfList, List.map_nil, List.sum_nil, add_zero]
  | cons g gs ih => rw [sumPolygonsOfList, ih, List.map_cons, List.sum_cons, add_assoc]

/-- The sums over the polygons of all parts make up the sum over all polygons. -/
theorem sumPolygons_eq [AddCommMonoid α] (size : List (List Vertex) → α) (g : Geometry) :
    g.sumPolygons size = (g.polygons.map size).sum := by
  induction g using induction_on_parts with
  | point v => rfl
  | lineString vs => rfl
  | linearRing vs => rfl
  | polygon rings => exact (add_zero _).symm
  | collection family ps ih =>
    rw [sumPolygons, sumPolygonsOfList_eq, zero_add, List.map_congr_left ih, polygons,
      atoms_collection, List.filterMap_flatMap, List.map_flatMap, sum_flatMap]
    rfl

theorem areaBy_eq [CommSemiring α] (size : List (List Vertex) → α) (radius : α) (g : Geometry) :
    g.areaBy size radius = (g.polygons.map fun rings => size rings * radius * radius).sum := by
  rw [areaBy, sumPolygons_eq, List.sum_map_mul_right, List.sum_map_mul_right]

theorem areaBy_flattened [CommSemiring α] (size : List (List Vertex) → α) (radius : α)
    (g : Geometry) : g.flattened.areaBy size radius = g.areaBy size radius := by
  rw [areaBy_eq, areaBy_eq, polygons, polygons, atoms_flattened]

end Area

section Length

variable {α : Type} [AddCommMonoid α] {size : List Vertex → α} {g p : Geometry}

theorem lines_eq_flatMap_parts (g : Geometry) : g.lines = g.parts.flatMap lines := by
  rw [lines, atoms_eq_flatMap_parts, List.filterMap_flatMap]
  rfl

theorem lines_flattened (g : Geometry) : g.flattened.lines = g.lines := by
  rw [lines, lines, atoms_flattened]

theorem buriedLines_flattened (g : Geometry) : g.flattened.buriedLines = [] := by
  rw [buriedLines, List.flatMap_eq_nil_iff]
  intro a ha
  have hatom : a.isAtom := isAtom_of_mem_atoms ha
  cases a with
  | collection family ps => cases hatom
  | _ => rfl

theorem lines_multiLine {ps : List Geometry} (h : ∀ p ∈ ps, p.path?.isSome) :
    (collection .lines ps).lines = ps.map atomVertices := by
  rw [lines, atoms_collection,
    List.flatMap_congr fun p hp => atoms_of_isAtom (isAtom_of_path?_isSome (h p hp)),
    List.flatMap_singleton', List.filterMap_congr fun p hp => path?_eq_of_isSome (h p hp)]
  exact congrFun List.filterMap_eq_map' ps

theorem lengthOfPart_add (h : p.Proper) :
    lengthOfPart size p + (p.linesBelow.map size).sum = (p.lines.map size).sum := by
  cases h with
  | atom h =>
    cases p with
    | point v => exact add_zero _
    | lineString vs => rfl
    | linearRing vs => rfl
    | polygon rings => exact add_zero _
    | collection family ps => cases h
  | points h => exact zero_add _
  | polygons h => exact zero_add _
  | mixed h => exact zero_add _
  | lines h =>
    rw [lines_multiLine h, List.map_map, lengthOfPart, ← List.sum_eq_foldl]
    exact add_zero _

theorem eq_nil_of_mem_lines (h : g.isEmpty) {vs : List Vertex} (hvs : vs ∈ g.lines) : vs = [] := by
  obtain ⟨a, ha, hpath⟩ := List.mem_filterMap.mp hvs
  have hnone := List.all_eq_true.mp h a ha
  rw [path?_eq_of_isSome (Option.isSome_of_mem hpath)] at hpath
  rw [← Option.some.inj hpath]
  exact List.isEmpty_iff.mp hnone

theorem mem_lines_of_mem_buriedLines {vs : List Vertex} (h : vs ∈ g.buriedLines) : vs ∈ g.lines := by
  obtain ⟨p, hp, hvs⟩ := List.mem_flatMap.mp h
  rw [lines_eq_flatMap_parts]
  refine List.mem_flatMap.mpr ⟨p, hp, ?_⟩
  unfold linesBelow at hvs
  split at hvs
  case h_2 => exact hvs
  all_goals exact absurd hvs List.not_mem_nil

/-- The length and the lengths of the buried lines make up the lengths of all lines. -/
theorem lengthBy_add (hsize : size [] = 0) (hg : g.Proper) :
    g.lengthBy size + (g.buriedLines.map size).sum = (g.lines.map size).sum := by
  cases hempty : g.isEmpty with
  | true =>
    have hnone : ∀ vs ∈ g.lines, size vs = 0 := fun vs hvs => by
      rw [eq_nil_of_mem_lines hempty hvs, hsize]
    rw [lengthBy, if_pos hempty, zero_add,
      List.map_congr_left fun vs hvs => hnone vs (mem_lines_of_mem_buriedLines hvs),
      List.map_congr_left hnone]
    simp
  | false =>
    have hparts : ∀ p ∈ g.parts,
        lengthOfPart size p + (p.linesBelow.map size).sum = (p.lines.map size).sum :=
      fun p hp => lengthOfPart_add (hg.of_mem_parts hp)
    rw [lengthBy, hempty, if_neg (by decide), ← List.sum_eq_foldl, buriedLines, List.map_flatMap,
      sum_flatMap, ← List.sum_map_add, List.map_congr_left hparts, lines_eq_flatMap_parts,
      List.map_flatMap, sum_flatMap]

theorem lengthBy_flattened (hsize : size [] = 0) (g : Geometry) :
    g.flattened.lengthBy size = (g.lines.map size).sum := by
  have hadd := lengthBy_add hsize (proper_flattened g)
  rwa [buriedLines_flattened, lines_flattened, List.map_nil, List.sum_nil, add_zero] at hadd

end Length

section Points

variable {g p : Geometry}

theorem length_places (gs : List Geometry) :
    (gs.filterMap place?).length + gs.countP isEmptyPoint = gs.countP isPoint := by
  induction gs with
  | nil => rfl
  | cons g gs ih =>
    rw [List.filterMap_cons, List.countP_cons, List.countP_cons]
    rcases g with ⟨_ | v⟩ | _ | _ | _ | _ <;> simp [place?, isPoint, isEmptyPoint] <;> omega

theorem countP_part (p : Geometry) :
    (if p.isPoint then 1 else 0) + p.pointsBelow.length = p.atoms.countP isPoint := by
  cases p with
  | collection family ps => rw [atoms, pointsBelow, List.countP_eq_length_filter]; exact zero_add _
  | _ => rfl

/-- The points among some parts and those below them are all points. -/
theorem countP_parts (ps : List Geometry) :
    ps.countP isPoint + (ps.flatMap pointsBelow).length = (ps.flatMap atoms).countP isPoint := by
  induction ps with
  | nil => rfl
  | cons p ps ih =>
    have hpart := countP_part p
    rw [List.countP_cons, List.flatMap_cons, List.flatMap_cons, List.length_append,
      List.countP_append]
    omega

theorem places_eq_nil (h : g.isEmpty) : g.places = [] := by
  rw [places, List.filterMap_eq_nil_iff]
  intro a ha
  have hnone := List.all_eq_true.mp h a ha
  cases a with
  | point v => cases v with
    | none => rfl
    | some v => cases hnone
  | _ => rfl

theorem countP_isEmptyPoint_eq_zero_iff {gs : List Geometry} :
    gs.countP isEmptyPoint = 0 ↔ Geometry.point none ∉ gs := by
  rw [List.countP_eq_zero]
  constructor
  · exact fun h hmem => h _ hmem rfl
  · intro h a ha hempty
    unfold isEmptyPoint at hempty
    split at hempty
    case h_1 => exact h ha
    case h_2 => cases hempty

/-- The points that are counted are all points, if none is buried and none is empty. -/
theorem seesThrough_pointTotal_iff (g : Geometry) :
    g.SeesThrough pointTotal (fun g => g.places.length) ↔
      g.isEmpty ∨ (g.buriedPoints = [] ∧ .point none ∉ g.atoms) := by
  rw [SeesThrough, pointTotal, pointTotal, isEmpty_flattened, parts_flattened]
  cases hempty : g.isEmpty with
  | true => simp [places_eq_nil hempty]
  | false =>
    have hplaces := length_places g.atoms
    have hparts := countP_parts g.parts
    rw [← atoms_eq_flatMap_parts] at hparts
    rw [← countP_isEmptyPoint_eq_zero_iff, ← List.length_eq_zero_iff, buriedPoints, places]
    simp only [Bool.false_eq_true, if_false, false_or]
    omega

/-- Points are counted if and only if there are some among the parts. -/
theorem pointTotal_pos_iff (h : g.isEmpty = false) :
    0 < g.pointTotal ↔ ∃ p ∈ g.parts, p.isPoint := by
  rw [pointTotal, h, if_neg (by decide), List.countP_pos_iff]

theorem not_isEmpty_of_dimension (h : g.dimension = 0) : g.isEmpty = false := by
  by_contra hempty
  rw [Bool.not_eq_false] at hempty
  rw [dimension, if_pos hempty] at h
  cases h

end Points

section Measures

variable {α : Type} [CommRing α]

theorem seesThrough_areaBy (size : List (List Vertex) → α) (radius : α) (g : Geometry) :
    g.SeesThrough (areaBy size radius)
      fun g => (g.polygons.map fun rings => size rings * radius * radius).sum :=
  ⟨areaBy_eq size radius g, areaBy_flattened size radius g⟩

theorem seesThrough_lengthBy_iff {size : List Vertex → α} (hsize : size [] = 0) {g : Geometry}
    (hg : g.Proper) :
    g.SeesThrough (lengthBy size) (fun g => (g.lines.map size).sum) ↔
      (g.buriedLines.map size).sum = 0 := by
  have hadd := lengthBy_add hsize hg
  rw [SeesThrough, lengthBy_flattened hsize, ← hadd]
  simp

/-- The area sees through every nest of collections. The length does so if and only if the buried
lines have none in all, and the number of points if and only if no point is buried and none is
empty, or all of the geometry is. A geometry of points only has a positive number of points if and
only if there is one among its parts. -/
theorem measures_seeThrough_iff (polygonSize : List (List Vertex) → α) (radius : α)
    {lineSize : List Vertex → α} (hsize : lineSize [] = 0) {g : Geometry} (hg : g.Proper) :
    g.SeesThrough (areaBy polygonSize radius)
        (fun g => (g.polygons.map fun rings => polygonSize rings * radius * radius).sum) ∧
      (g.SeesThrough (lengthBy lineSize) (fun g => (g.lines.map lineSize).sum) ↔
        (g.buriedLines.map lineSize).sum = 0) ∧
      (g.SeesThrough pointTotal (fun g => g.places.length) ↔
        g.isEmpty ∨ (g.buriedPoints = [] ∧ .point none ∉ g.atoms)) ∧
      (g.dimension = 0 → (0 < g.pointTotal ↔ ∃ p ∈ g.parts, p.isPoint)) :=
  ⟨seesThrough_areaBy polygonSize radius g, seesThrough_lengthBy_iff hsize hg,
    seesThrough_pointTotal_iff g, fun h => pointTotal_pos_iff (not_isEmpty_of_dimension h)⟩

/-- A nest with a line and a multi-point in it, a multi-line and an empty point. -/
theorem measures_seeThrough_nest :
    let line : Geometry := .lineString [⟨⟨0, 0⟩, none⟩, ⟨⟨1, 1⟩, none⟩]
    let points : Geometry := .collection .points [.point (some ⟨⟨0, 0⟩, none⟩)]
    let g : Geometry := .collection .mixed
      [.collection .mixed [line, points], .collection .lines [line], .point none]
    let polygonSize : List (List Vertex) → ℚ := fun rings => rings.length
    let lineSize : List Vertex → ℚ := fun vs => vs.length - vs.length / 2
    lineSize [] = 0 ∧ g.Proper ∧
      (g.SeesThrough (areaBy polygonSize 2)
          (fun g => (g.polygons.map fun rings => polygonSize rings * 2 * 2).sum) ∧
        (g.SeesThrough (lengthBy lineSize) (fun g => (g.lines.map lineSize).sum) ↔
          (g.buriedLines.map lineSize).sum = 0) ∧
        (g.SeesThrough pointTotal (fun g => g.places.length) ↔
          g.isEmpty ∨ (g.buriedPoints = [] ∧ .point none ∉ g.atoms)) ∧
        (g.dimension = 0 → (0 < g.pointTotal ↔ ∃ p ∈ g.parts, p.isPoint))) := by
  intro line points g polygonSize lineSize
  have hsize : lineSize [] = 0 := by simp [lineSize]
  have hpoints : points.Proper := .points (by simp [isPoint])
  have hlines : (collection .lines [line]).Proper := .lines (by simp [line, path?])
  have hg : g.Proper := by
    refine .mixed (List.forall_mem_cons.mpr ⟨.mixed ?_, ?_⟩)
    · simpa using ⟨.atom rfl, hpoints⟩
    · simpa using ⟨hlines, .atom rfl⟩
  exact ⟨hsize, hg, measures_seeThrough_iff polygonSize 2 hsize hg⟩

/-- A collection that holds a multi-point and a collection that holds a line has neither points nor
length, and a collection that holds the multi-point alone is of dimension 0 without any points. -/
theorem buried_without_measure :
    let line : Geometry := .lineString [⟨⟨10, 80⟩, none⟩, ⟨⟨-170, 80⟩, none⟩]
    let points : Geometry :=
      .collection .points [.point (some ⟨⟨0, 0⟩, none⟩), .point (some ⟨⟨1, 1⟩, none⟩)]
    let g : Geometry := .collection .mixed [.collection .mixed [line], points]
    let h : Geometry := .collection .mixed [points]
    let size : List Vertex → ℤ := fun vs => vs.length
    (g.lengthBy size = 0 ∧ (g.lines.map size).sum = 2 ∧ g.flattened.lengthBy size = 2) ∧
      (g.pointTotal = 0 ∧ g.places.length = 2 ∧ g.flattened.pointTotal = 2) ∧
      h.isEmpty = false ∧ h.dimension = 0 ∧ h.pointTotal = 0 := by
  exact ⟨⟨rfl, rfl, rfl⟩, ⟨rfl, rfl, rfl⟩, rfl, rfl, rfl⟩

end Measures

end Geometry

end Gridding
