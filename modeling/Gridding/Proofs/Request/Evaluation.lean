import Gridding.Proofs.Allocation.Merge
import Gridding.Proofs.Surrogate.Leaves
import Gridding.Request.Evaluation

/-!
# Surrogates as sums of their leaves

If the leaves of a surrogate can be allocated one after the other, so can the surrogate, as long as
no merged one in it is without components. Its allocation is the sum of theirs, each under the
product of the multipliers on the way to it.
-/

namespace Gridding.Surrogate

variable {σ ρ α ε S : Type}

/-- Leaves are allocated one after the other and none fails; these are the factors with the
allocations. -/
inductive AllocatesInTurn (allocate : Label → σ → S → Except ε (Allocation ρ α) × S) :
    List (Leaf σ α) → S → List (α × Allocation ρ α) → S → Prop where
  | nil (d : S) : AllocatesInTurn allocate [] d [] d
  | cons {l : Leaf σ α} {ls : List (Leaf σ α)} {d d₁ d₂ : S} {a : Allocation ρ α}
      {ts : List (α × Allocation ρ α)} (first : allocate l.label l.source d = (.ok a, d₁))
      (rest : AllocatesInTurn allocate ls d₁ ts d₂) :
    AllocatesInTurn allocate (l :: ls) d ((l.factor, a) :: ts) d₂

namespace AllocatesInTurn

variable {allocate : Label → σ → S → Except ε (Allocation ρ α) × S} {ls ls' : List (Leaf σ α)}
  {d d' : S} {ts : List (α × Allocation ρ α)}

theorem of_append (h : AllocatesInTurn allocate (ls ++ ls') d ts d') :
    ∃ d₁ ts₁ ts₂, AllocatesInTurn allocate ls d ts₁ d₁ ∧ AllocatesInTurn allocate ls' d₁ ts₂ d' ∧
      ts = ts₁ ++ ts₂ := by
  induction ls generalizing d ts with
  | nil => exact ⟨d, [], ts, .nil d, h, rfl⟩
  | cons l ls ih =>
    cases h with
    | cons first rest =>
      obtain ⟨d₁, ts₁, ts₂, h₁, h₂, rfl⟩ := ih rest
      exact ⟨d₁, _, ts₂, .cons first h₁, h₂, rfl⟩

theorem of_scale [CommSemiring α] {m : α}
    (h : AllocatesInTurn allocate (ls.map (·.scale m)) d ts d') :
    ∃ us, AllocatesInTurn allocate ls d us d' ∧ ts = us.map (Allocation.scaledTerm m) := by
  induction ls generalizing d ts with
  | nil =>
    cases h
    exact ⟨[], .nil _, rfl⟩
  | cons l ls ih =>
    cases h with
    | cons first rest =>
      obtain ⟨us, hus, rfl⟩ := ih rest
      exact ⟨_, .cons first hus, rfl⟩

theorem append {us : List (α × Allocation ρ α)} {d₁ : S}
    (h : AllocatesInTurn allocate ls d ts d₁) (h' : AllocatesInTurn allocate ls' d₁ us d') :
    AllocatesInTurn allocate (ls ++ ls') d (ts ++ us) d' := by
  induction h with
  | nil d => exact h'
  | cons first rest ih => exact .cons first (ih h')

theorem scale [CommSemiring α] (h : AllocatesInTurn allocate ls d ts d') (m : α) :
    AllocatesInTurn allocate (ls.map (·.scale m)) d (ts.map (Allocation.scaledTerm m)) d' := by
  induction h with
  | nil d => exact .nil d
  | cons first rest ih => exact .cons (l := Leaf.scale _ m) first ih

/-- What holds of all simple allocations. -/
theorem forall_mem {P : Allocation ρ α → Prop}
    (hP : ∀ l source d a d', allocate l source d = (.ok a, d') → P a)
    (h : AllocatesInTurn allocate ls d ts d') : ∀ t ∈ ts, P t.2 := by
  induction h with
  | nil d => simp
  | cons first rest ih => exact List.forall_mem_cons.mpr ⟨hP _ _ _ _ _ first, ih⟩

theorem map_factor (h : AllocatesInTurn allocate ls d ts d') :
    ts.map (·.1) = ls.map (·.factor) := by
  induction h with
  | nil d => rfl
  | cons first rest ih => rw [List.map_cons, List.map_cons, ih]

/-- If simple allocations do not look at the state, there are no two answers. -/
theorem eq_of_stateless
    (hallocate : ∀ l source d d', (allocate l source d).1 = (allocate l source d').1)
    {us : List (α × Allocation ρ α)} {d₁ d₂ : S} (h : AllocatesInTurn allocate ls d ts d')
    (h' : AllocatesInTurn allocate ls d₁ us d₂) : us = ts := by
  induction h generalizing us d₁ with
  | nil d =>
    cases h'
    rfl
  | cons first rest ih =>
    cases h' with
    | cons first' rest' =>
      have heq := (congrArg Prod.fst first).symm.trans
        ((hallocate _ _ _ _).trans (congrArg Prod.fst first'))
      rw [ih rest', Except.ok.inj heq]

end AllocatesInTurn

open Allocation (SameSum)

variable [CommSemiring α] {allocate : Label → σ → S → Except ε (Allocation ρ α) × S}
  {location : String} {place : Int × Int × Option (Shape ρ)} {d d' : S}
  {ts : List (α × Allocation ρ α)}

/-- An evaluation that comes to the sum of some terms. -/
def SumsTo (r : Except (ComputationError ε) (Allocation ρ α) × S)
    (place : Int × Int × Option (Shape ρ)) (ts : List (α × Allocation ρ α)) (d : S) : Prop :=
  ∃ a, r = (.ok a, d) ∧ a.setting = place ∧ SameSum ts [(1, a)]

/-- Components are evaluated to allocations whose sum is that of the leaves. -/
theorem evaluateAll_of_leaves {components : List (Surrogate σ α × α)}
    (hcomponents : ∀ c ∈ components, c.1.HasComponents → ∀ d ts d',
      AllocatesInTurn allocate c.1.leaves d ts d' →
        SumsTo (c.1.evaluate allocate location d) place ts d')
    (hall : AllHaveComponents components)
    (h : AllocatesInTurn allocate (leavesOfAll components) d ts d') :
    ∃ rs, evaluateAll allocate location components d = (.ok rs, d') ∧
      rs.length = components.length ∧ (∀ r ∈ rs, r.setting = place) ∧
      SameSum ts ((components.map (·.2)).zip rs) := by
  induction components generalizing d ts with
  | nil =>
    cases h
    exact ⟨[], rfl, rfl, by simp, .refl []⟩
  | cons c cs ih =>
    obtain ⟨c, m⟩ := c
    rw [AllHaveComponents] at hall
    rw [leavesOfAll] at h
    obtain ⟨d₁, ts₁, ts₂, hfirst, hrest, rfl⟩ := h.of_append
    obtain ⟨us, hus, rfl⟩ := hfirst.of_scale
    obtain ⟨r, hr, hplace, hsum⟩ :=
      hcomponents (c, m) List.mem_cons_self hall.1 d us d₁ hus
    obtain ⟨rs, hrs, hlen, hplaces, hsums⟩ :=
      ih (fun c hc => hcomponents c (List.mem_cons_of_mem _ hc)) hall.2 hrest
    refine ⟨r :: rs, ?_, by rw [List.length_cons, hlen, List.length_cons],
      List.forall_mem_cons.mpr ⟨hplace, hplaces⟩, ?_⟩
    · simp only [evaluateAll, hr, hrs, Except.map]
    · have hscaled := (hsum.scale m).append hsums
      rwa [List.map_singleton, Allocation.scaledTerm, one_mul] at hscaled

theorem evaluate_of_leaves
    (hplace : ∀ l source d a d', allocate l source d = (.ok a, d') → a.setting = place)
    (s : Surrogate σ α) (hs : s.HasComponents) (h : AllocatesInTurn allocate s.leaves d ts d') :
    SumsTo (s.evaluate allocate location d) place ts d' := by
  induction s generalizing d ts d' with
  | simple l source =>
    rw [leaves] at h
    cases h with
    | cons first rest =>
      cases rest
      refine ⟨_, ?_, hplace _ _ _ _ _ first, .refl _⟩
      rw [evaluate, first]
      rfl
  | merged l components ih =>
    rw [HasComponents] at hs
    rw [leaves] at h
    have hcomponents : ∀ c ∈ components, c.1.HasComponents → ∀ d ts d',
        AllocatesInTurn allocate c.1.leaves d ts d' →
          SumsTo (c.1.evaluate allocate location d) place ts d' :=
      fun c hc hhas _ _ _ hleaves => ih c hc hhas hleaves
    obtain ⟨rs, hrs, hlen, hplaces, hsum⟩ := evaluateAll_of_leaves hcomponents hs.2 h
    have hne : rs ≠ [] := by
      rintro rfl
      exact hs.1 (List.length_eq_zero_iff.mp hlen.symm)
    obtain ⟨a, ha, haplace, hmerged⟩ :=
      Allocation.exists_merge hne (hlen.trans (List.length_map _).symm) hplaces
    refine ⟨a, ?_, haplace, hsum.trans hmerged⟩
    have hnonempty : components.isEmpty = false := List.isEmpty_eq_false_iff.mpr hs.1
    simp only [evaluate, hnonempty, hrs, ha, Except.mapError, Bool.false_eq_true, if_false]

/-! ## From surrogates to leaves -/

theorem leavesOfAll_of_evaluateAll {components : List (Surrogate σ α × α)}
    {rs : List (Allocation ρ α)}
    (hcomponents : ∀ c ∈ components, ∀ d a d', c.1.evaluate allocate location d = (.ok a, d') →
      c.1.HasComponents ∧ ∃ ts, AllocatesInTurn allocate c.1.leaves d ts d')
    (h : evaluateAll allocate location components d = (.ok rs, d')) :
    AllHaveComponents components ∧
      ∃ ts, AllocatesInTurn allocate (leavesOfAll components) d ts d' := by
  induction components generalizing d rs with
  | nil =>
    cases h
    exact ⟨trivial, [], .nil _⟩
  | cons c cs ih =>
    obtain ⟨c, m⟩ := c
    simp only [evaluateAll] at h
    split at h
    case h_1 => cases h
    case h_2 a d₁ hfirst =>
      obtain ⟨hhas, ts, hts⟩ := hcomponents (c, m) List.mem_cons_self d a d₁ hfirst
      obtain ⟨hrest, hd⟩ := Prod.mk.inj h
      obtain ⟨as, has, -⟩ := map_eq_ok.mp hrest
      obtain ⟨hall, us, hus⟩ := ih (fun c hc => hcomponents c (List.mem_cons_of_mem _ hc))
        (Prod.ext has hd : evaluateAll allocate location cs d₁ = (.ok as, d'))
      rw [AllHaveComponents, leavesOfAll]
      exact ⟨⟨hhas, hall⟩, _, (hts.scale m).append hus⟩

/-- A surrogate is allocated only if its leaves are. -/
theorem leaves_of_evaluate {s : Surrogate σ α} {a : Allocation ρ α}
    (h : s.evaluate allocate location d = (.ok a, d')) :
    s.HasComponents ∧ ∃ ts, AllocatesInTurn allocate s.leaves d ts d' := by
  induction s generalizing d a d' with
  | simple l source =>
    rw [evaluate] at h
    obtain ⟨hresult, hd⟩ := Prod.mk.inj h
    rw [HasComponents, leaves]
    exact ⟨trivial, _, .cons (Prod.ext (mapError_eq_ok.mp hresult) hd) (.nil d')⟩
  | merged l components ih =>
    rw [HasComponents, leaves]
    simp only [evaluate] at h
    split at h
    case isTrue => cases h
    case isFalse hne =>
      split at h
      case h_1 => cases h
      case h_2 rs d₁ hrs =>
        obtain ⟨-, rfl⟩ := Prod.mk.inj h
        obtain ⟨hall, hts⟩ := leavesOfAll_of_evaluateAll (fun c hc _ _ _ hc' => ih c hc hc') hrs
        exact ⟨⟨by simpa using hne, hall⟩, hts⟩

end Gridding.Surrogate
