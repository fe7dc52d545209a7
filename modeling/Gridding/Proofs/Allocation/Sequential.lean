import Gridding.Allocation.Engine
import Gridding.Proofs.Pool.Visit

/-!
# Allocation item after item

`sequential` allocates a shape without a pool: it clips granule after granule and intersects cell
after cell. Allocation by stripes agrees with it, however the stripes of either stage are run.
-/

namespace Gridding

variable {ρ α ε φ : Type} [Region ρ α ε]

namespace Engine

section Clips

variable [Mul α]

/-- The clips to a shape that are not empty. -/
def clipsOf (shape : Shape ρ) (data : Dataset ρ α) : Except (Fault ε) (List (Clip ρ α)) :=
  (((data.near shape.footprint).map (·.2)).mapM (clip shape data.dimension)).map List.reduceOption

theorem clipWorker_agree (shape : Shape ρ) (data : Dataset ρ α) {workers : Int}
    {r : Except (Fault ε) (List (List (Nat × Clip ρ α)))}
    (h : Striped.Outcome (clipWorker shape data.dimension
        ((data.near shape.footprint).map (·.2)).toArray)
      (Striped.stripes ((data.near shape.footprint).map (·.2)).length workers) r) :
    Agree (fun parts clips => (Striped.gather parts).map (·.2) = clips) r (clipsOf shape data) := by
  have hg := Striped.Outcome.gather_agree h
  rw [Int.toNat_natCast, Striped.visit_range (F := clip shape data.dimension)
    fun j hj => by rw [List.getElem?_toArray, List.getElem?_eq_getElem hj]] at hg
  unfold clipsOf
  cases hm : ((data.near shape.footprint).map (·.2)).mapM (clip shape data.dimension) with
  | error e =>
    rw [hm] at hg
    cases r with
    | error e' => trivial
    | ok parts => exact hg.elim
  | ok os =>
    rw [hm] at hg
    cases r with
    | error e' => exact hg.elim
    | ok parts =>
      have hparts : Striped.gather parts = Striped.placed 0 os := hg
      change (Striped.gather parts).map (·.2) = os.reduceOption
      rw [hparts, Striped.map_snd_placed]

end Clips

section Overlaps

variable [Zero α] [LT α] [DecidableLT α]

/-- The overlaps of the cells that overlap anything, by the places of the cells. -/
def overlapsOf (dim : Int) (clips : List (Clip ρ α)) (cells : List (Cell ρ α)) :
    Except (Fault ε) (List (Nat × List (Nat × α))) :=
  (cells.mapM fun cell => do
    let overlaps ← cellOverlaps dim cell (indexed clips)
    return if overlaps.isEmpty then none else some overlaps).map (Striped.placed 0)

theorem cellWorker_agree (dim : Int) (clips : List (Clip ρ α)) (cells : List (Cell ρ α))
    {workers : Int} {r : Except (Fault ε) (List (List (Nat × List (Nat × α))))}
    (h : Striped.Outcome (cellWorker dim clips cells.toArray)
      (Striped.stripes cells.length workers) r) :
    Agree (fun parts found => Striped.gather parts = found) r (overlapsOf dim clips cells) := by
  have hg := Striped.Outcome.gather_agree h
  rw [Int.toNat_natCast, Striped.visit_range (F := fun cell => do
    let overlaps ← cellOverlaps dim cell (indexed clips)
    return if overlaps.isEmpty then none else some overlaps)
    fun j hj => by rw [List.getElem?_toArray, List.getElem?_eq_getElem hj]] at hg
  exact hg

end Overlaps

/-- Runs striped work in such a way that it comes to an outcome of the work, if it does not fail
for a reason of the runner's own; `IsReason` holds of the reasons that are not. -/
def Settles {β : Type} (IsReason : φ → Prop)
    (run : Striped.Worker (Fault ε) β → Int → Int → Except φ (List β)) : Prop :=
  ∀ worker items workers, (∀ x, run worker items workers = .error x → IsReason x) →
    ∃ r, Striped.Outcome worker (Striped.stripes items workers) r ∧
      Agree (· = ·) (run worker items workers) r

theorem inOrder_settles {β : Type} :
    Settles (fun _ => True) (Striped.inOrder (ε := Fault ε) (α := β)) :=
  fun worker items workers _ => ⟨_, Striped.inOrder_outcome worker items workers, .refl _⟩

theorem runUnder_settles {β : Type} (events : List Striped.Event) :
    Settles (fun x => x ≠ none) (runUnder (ε := ε) (β := β) events) := by
  intro worker items workers h
  unfold runUnder at h ⊢
  cases he : Striped.execute worker items workers events with
  | none =>
    rw [he] at h
    exact absurd rfl (h none rfl)
  | some r => exact ⟨r, Striped.execute_outcome he, (Agree.refl r).mapError some⟩

variable [Zero α] [One α] [Mul α] [Div α] [LT α] [LE α] [DecidableLT α] [DecidableLE α] [BEq α]
  [Tally α]

/-- Allocates a shape, granule after granule and then cell after cell. -/
def sequential (shape : Shape ρ) (grid : Grid ρ α) (data : Dataset ρ α) :
    Except (Fault ε) (Allocation ρ α) := do
  let covered ← grid.covers shape.footprint
  let clips ← clipsOf shape data
  let total ← Fault.add (clips.map (·.contribution))
  if total == 0 then return nothing shape grid
  else
    let found ← overlapsOf data.dimension clips (grid.near shape.footprint)
    let kept ← weighted (grid.near shape.footprint) clips data.dimension total found
    return ⟨kept, covered, grid.nx, grid.ny, some shape, total⟩

theorem allocateBy_agree {IsReason : φ → Prop} (lift : Fault ε → φ)
    {runClips : Striped.Worker (Fault ε) (List (Nat × Clip ρ α)) → Int → Int →
      Except φ (List (List (Nat × Clip ρ α)))}
    {runCells : Striped.Worker (Fault ε) (List (Nat × List (Nat × α))) → Int → Int →
      Except φ (List (List (Nat × List (Nat × α))))}
    (hclips : Settles IsReason runClips) (hcells : Settles IsReason runCells)
    (workers : Int) (shape : Shape ρ) (grid : Grid ρ α) (data : Dataset ρ α)
    (h : ∀ x, allocateBy lift runClips runCells workers shape grid data = .error x → IsReason x) :
    Agree (· = ·) (allocateBy lift runClips runCells workers shape grid data)
      (sequential shape grid data) := by
  unfold allocateBy at h ⊢
  unfold sequential
  refine Agree.bind ((Agree.refl _).mapError lift) ?_
  rintro covered _ hc - rfl
  simp only [hc, bind, Except.bind] at h
  obtain ⟨r, hr, hrun⟩ := hclips (clipWorker shape data.dimension
    ((data.near shape.footprint).map (·.2)).toArray) ((data.near shape.footprint).map (·.2)).length
    workers fun x hx => h x (by rw [hx])
  have hstage := hrun.trans_eq (clipWorker_agree shape data hr)
  refine Agree.bind hstage ?_
  rintro parts clips hparts - rfl
  simp only [hparts] at h
  refine Agree.bind ((Agree.refl _).mapError lift) ?_
  rintro total _ ht - rfl
  simp only [ht] at h
  split
  · exact rfl
  · rename_i hz
    simp only [hz] at h
    obtain ⟨r', hr', hrun'⟩ := hcells (cellWorker data.dimension
      ((Striped.gather parts).map (·.2)) (grid.near shape.footprint).toArray)
      (grid.near shape.footprint).length workers fun x hx => h x (by simp [hx])
    have hstage' := hrun'.trans_eq (cellWorker_agree data.dimension _ _ hr')
    refine Agree.bind hstage' ?_
    rintro parts' found - - rfl
    refine Agree.bind ((Agree.refl _).mapError lift) ?_
    rintro kept _ - - rfl
    exact rfl

/-- Running the stripes of each stage in order comes to the same as no stripes at all. -/
theorem allocate_agree (workers : Int) (shape : Shape ρ) (grid : Grid ρ α) (data : Dataset ρ α) :
    Agree (· = ·) (allocate workers shape grid data) (sequential shape grid data) :=
  allocateBy_agree id inOrder_settles inOrder_settles workers shape grid data fun _ _ => trivial

/-- So does any schedule that is possible and complete. -/
theorem allocateUnder_agree {clipEvents cellEvents : List Striped.Event} {workers : Int}
    {shape : Shape ρ} {grid : Grid ρ α} {data : Dataset ρ α}
    (h : allocateUnder clipEvents cellEvents workers shape grid data ≠ .error none) :
    Agree (· = ·) (allocateUnder clipEvents cellEvents workers shape grid data)
      (sequential shape grid data) := by
  refine allocateBy_agree some (runUnder_settles clipEvents) (runUnder_settles cellEvents) workers
    shape grid data ?_
  rintro x hx rfl
  exact h hx

end Engine

end Gridding
