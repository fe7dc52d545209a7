import Gridding.Proofs.Fallible
import Gridding.Surrogate.Archive
import Mathlib.Data.List.Forall2
import Mathlib.Tactic.Common

/-!
# Archives are lossless

The offsets cut the joined bytes exactly where the parts were joined, however long they are. So if
the binary form of each footprint reads back with the same coordinates, a dataset comes back from its
archive with the same granules in the same order, and finds the same of them near any region. The
only datasets without an archive are those whose dimension does not fit in 64 bits.
-/

namespace Gridding

variable {ρ α ε : Type}

namespace Archive

/-! ## Offsets -/

theorem runningEnds_eq_cons (start : Nat) (parts : List (List UInt8)) :
    runningEnds start parts = start :: (runningEnds start parts).tail := by
  cases parts <;> rfl

theorem slice_middle (before part after : List UInt8) :
    slice (before ++ (part ++ after)) before.length (before.length + part.length) = part := by
  rw [slice, List.drop_left, Nat.add_sub_cancel_left, List.take_left]

/-- Cutting at the offsets gives back the parts that were joined. -/
theorem slices_runningEnds (before : List UInt8) (parts : List (List UInt8)) :
    slices (before ++ parts.flatten) (runningEnds before.length parts) = parts := by
  induction parts generalizing before with
  | nil => rfl
  | cons part parts ih =>
    -- the rest is cut with this part in front of it
    have hrest := ih (before ++ part)
    rw [List.length_append, List.append_assoc, slices] at hrest
    have hends := runningEnds_eq_cons (before.length + part.length) parts
    calc slices (before ++ (part :: parts).flatten) (runningEnds before.length (part :: parts))
        = List.zipWith (slice (before ++ (part ++ parts.flatten)))
            (before.length :: runningEnds (before.length + part.length) parts)
            ((before.length + part.length) ::
              (runningEnds (before.length + part.length) parts).tail) := by
          rw [← hends]
          rfl
      _ = part :: parts := by rw [List.zipWith_cons_cons, slice_middle, hrest]

/-! ## Granules -/

section Granules

variable {form : ρ → List UInt8} {read : List UInt8 → Option ρ} {Same : ρ → ρ → Prop}

theorem exists_read {granules : List (Granule ρ α)}
    (hread : ∀ g ∈ granules, ∃ r, read (form g.footprint) = some r ∧ Same g.footprint r) :
    ∃ regions, (granules.map fun g => form g.footprint).mapM read = some regions ∧
      List.Forall₂ (fun g g' => Same g.footprint g'.footprint ∧ g'.weight = g.weight) granules
        (List.zipWith Granule.mk regions (granules.map (·.weight))) := by
  induction granules with
  | nil => exact ⟨[], rfl, .nil⟩
  | cons g granules ih =>
    obtain ⟨r, hr, hsame⟩ := hread g List.mem_cons_self
    obtain ⟨regions, hregions, hall⟩ := ih fun g' hg' => hread g' (List.mem_cons_of_mem g hg')
    refine ⟨r :: regions, ?_, .cons ⟨hsame, rfl⟩ hall⟩
    rw [mapM_eq_some_iff] at hregions ⊢
    rw [List.map_cons, List.map_cons, hr, hregions, List.map_cons]

/-- A dataset comes back granule by granule if each of its regions does. -/
theorem decode_encode {d : Dataset ρ α}
    (hread : ∀ g ∈ d.granules, ∃ r, read (form g.footprint) = some r ∧ Same g.footprint r) :
    ∃ back, decode read (encode form d) = some back ∧ back.dimension = d.dimension ∧
      List.Forall₂ (fun g g' => Same g.footprint g'.footprint ∧ g'.weight = g.weight)
        d.granules back.granules := by
  obtain ⟨regions, hregions, hall⟩ := exists_read hread
  have hparts := slices_runningEnds [] (d.granules.map fun g => form g.footprint)
  refine ⟨⟨List.zipWith Granule.mk regions (d.granules.map (·.weight)), d.dimension⟩, ?_, rfl, hall⟩
  rw [List.nil_append, List.length_nil] at hparts
  rw [decode, encode, hparts, hregions]
  rfl

end Granules

end Archive

/-! ## Finding granules -/

theorem map_fst_filter_zip {β γ : Type} {p : β → Bool} {q : γ → Bool} {places : List Nat}
    {xs : List β} {ys : List γ} (h : List.Forall₂ (fun x y => p x = q y) xs ys) :
    ((places.zip xs).filter fun e => p e.2).map (·.1) =
      ((places.zip ys).filter fun e => q e.2).map (·.1) := by
  induction h generalizing places with
  | nil => cases places <;> rfl
  | @cons x y xs ys hxy _ ih =>
    cases places with
    | nil => rfl
    | cons n places =>
      rw [List.zip_cons_cons, List.zip_cons_cons, List.filter_cons, List.filter_cons, hxy]
      cases q y <;> simp [ih]

theorem Dataset.map_fst_near [Region ρ α ε] {d d' : Dataset ρ α} {r : ρ}
    (h : List.Forall₂ (fun g g' => Region.isNear g.footprint r = Region.isNear g'.footprint r)
      d.granules d'.granules) :
    (d'.near r).map (·.1) = (d.near r).map (·.1) := by
  rw [near, near, h.length_eq]
  exact (map_fst_filter_zip h).symm

namespace Geometry

mutual

/-- The geometry with lines in place of rings, which have the same binary form. -/
def unringed : Geometry → Geometry
  | .linearRing vs => .lineString vs
  | .collection family parts => .collection family (unringedOfList parts)
  | .point v => .point v
  | .lineString vs => .lineString vs
  | .polygon rings => .polygon rings

def unringedOfList : List Geometry → List Geometry
  | [] => []
  | g :: gs => unringed g :: unringedOfList gs

end

mutual

theorem vertices_unringed : ∀ g : Geometry, g.unringed.vertices = g.vertices
  | .linearRing _ => rfl
  | .collection _ parts => vertices_unringedOfList parts
  | .point _ => rfl
  | .lineString _ => rfl
  | .polygon _ => rfl

theorem vertices_unringedOfList :
    ∀ gs : List Geometry, (atomsOfList (unringedOfList gs)).flatMap atomVertices =
      (atomsOfList gs).flatMap atomVertices
  | [] => rfl
  | g :: gs => by
    rw [unringedOfList, atomsOfList, atomsOfList, List.flatMap_append, List.flatMap_append,
      vertices_unringedOfList gs]
    exact congrArg (· ++ _) (vertices_unringed g)

end

theorem bounds?_unringed (g : Geometry) : g.unringed.bounds? = g.bounds? := by
  rw [bounds?, bounds?, points, points, vertices_unringed]

theorem isNear_eq_of_unringed {g g' : Geometry} (h : g'.unringed = g.unringed) (r : Geometry) :
    g.isNear r = g'.isNear r := by
  rw [isNear, isNear, ← bounds?_unringed g, ← h, bounds?_unringed]

end Geometry

/-! ## Archives of datasets -/

namespace Footprint

/-- The same geometry, but for rings that have become lines. -/
def SameCoordinates (f f' : Footprint) : Prop := f'.geometry.unringed = f.geometry.unringed

/-- The binary form of a footprint reads back with the same coordinates. -/
def ReadsBack (f : Footprint) : Prop := ∃ f', ofBytes f.bytes = some f' ∧ f.SameCoordinates f'

theorem SameCoordinates.isNear_eq {f f' : Footprint} (h : f.SameCoordinates f') (r : Footprint) :
    Region.isNear f r = Region.isNear f' r :=
  Geometry.isNear_eq_of_unringed h r.geometry

end Footprint

namespace Archive

theorem fitsWord_iff {n : Int} :
    fitsWord n = true ↔ -9223372036854775808 ≤ n ∧ n ≤ 9223372036854775807 := by
  rw [fitsWord, Bool.and_eq_true, decide_eq_true_iff, decide_eq_true_iff]

/-- A dataset whose dimension fits in 64 bits comes back from its archive with the same dimension
and, in order, the same coordinates and weights, and the same of its granules are near any region.
Other datasets have no archive. -/
theorem archive_lossless (d : Dataset Footprint Float)
    (hread : ∀ g ∈ d.granules, g.footprint.ReadsBack) :
    (-9223372036854775808 ≤ d.dimension ∧ d.dimension ≤ 9223372036854775807 →
      ∃ a back, ofDataset Footprint.bytes d = .ok a ∧ decode Footprint.ofBytes a = some back ∧
        back.dimension = d.dimension ∧
        List.Forall₂ (fun g g' => g.footprint.SameCoordinates g'.footprint ∧ g'.weight = g.weight)
          d.granules back.granules ∧
        ∀ r : Footprint, (back.near r).map (·.1) = (d.near r).map (·.1)) ∧
    (¬ (-9223372036854775808 ≤ d.dimension ∧ d.dimension ≤ 9223372036854775807) →
      ofDataset Footprint.bytes d = .error .dimensionTooLarge) := by
  rw [← fitsWord_iff]
  constructor
  · intro hfits
    have hparts : ∀ g ∈ d.granules, ∃ f', Footprint.ofBytes g.footprint.bytes = some f' ∧
        g.footprint.SameCoordinates f' := hread
    obtain ⟨back, hback, hdim, hall⟩ := decode_encode hparts
    refine ⟨_, back, if_pos hfits, hback, hdim, hall, fun r => ?_⟩
    exact Dataset.map_fst_near (hall.imp fun _ _ h => h.1.isNear_eq r)
  · intro hfits
    exact if_neg hfits

section Cases

private def corner : Vertex := ⟨⟨-75.5, 39⟩, none⟩

private def peak : Vertex := ⟨⟨-75, 39.5⟩, some 1200⟩

/-- Places of very different kinds, one of them listed twice. -/
private def places : Dataset Footprint Float :=
  ⟨[⟨⟨.point (some peak)⟩, 0.1⟩,
    ⟨⟨.collection .mixed [.point (some corner), .linearRing [corner, corner, corner, corner]]⟩, 2⟩,
    ⟨⟨.polygon []⟩, -1⟩,
    ⟨⟨.point (some peak)⟩, 0.1⟩], -7⟩

theorem archive_lossless_places :
    (∀ g ∈ places.granules, g.footprint.ReadsBack) ∧
      ∃ a back, ofDataset Footprint.bytes places = .ok a ∧
        decode Footprint.ofBytes a = some back ∧ back.dimension = -7 ∧
        back.granules.length = 4 := by
  have hread : ∀ g ∈ places.granules, g.footprint.ReadsBack := by
    intro g hg
    simp only [places, List.mem_cons, List.not_mem_nil, or_false] at hg
    obtain rfl | rfl | rfl | rfl := hg <;> exact ⟨_, rfl, rfl⟩
  obtain ⟨a, back, ha, hback, hdim, hall, -⟩ :=
    (archive_lossless places hread).1 ⟨by decide, by decide⟩
  exact ⟨hread, a, back, ha, hback, hdim, hall.length_eq.symm⟩

theorem dimension_without_archive :
    ofDataset Footprint.bytes (⟨[], 9223372036854775808⟩ : Dataset Footprint Float) =
      .error .dimensionTooLarge := rfl

end Cases

end Archive

end Gridding
