import Gridding.Surrogate.Registry
import Mathlib.Data.List.Forall2
import Mathlib.Data.List.Perm.Basic
import Mathlib.Logic.Relation

/-!
# References between surrogates

A definition of a surrogate is simple, or it names the surrogates of its region that the defined one
is merged of. Definitions refer to others by keys. All references may be known, and they may lead
back to where they come from or not; what is grounded leads to simple definitions only.

`Known`, `Acyclic` and `Grounded` are properties of definitions in any order.
-/

namespace Gridding.Registry

/-- A surrogate by its source, or by names and multipliers. -/
inductive Definition (σ α : Type) where
  | simple (label : Label) (source : σ)
  | merged (label : Label) (items : List (String × α))

namespace Definition

variable {σ α : Type}

def label : Definition σ α → Label
  | simple label _ => label
  | merged label _ => label

def key (d : Definition σ α) : RegistryKey := d.label.nameKey

def items : Definition σ α → List (String × α)
  | simple _ _ => []
  | merged _ items => items

/-- The keys of what the defined surrogate is merged of. -/
def references (d : Definition σ α) : List RegistryKey :=
  d.items.map fun item => (d.label.region, item.1)

end Definition

variable {σ α : Type}

def Refers (ds : List (Definition σ α)) (k k' : RegistryKey) : Prop :=
  ∃ d ∈ ds, d.key = k ∧ k' ∈ d.references

/-- Does every reference name a definition? -/
def Known (ds : List (Definition σ α)) : Prop :=
  ∀ d ∈ ds, ∀ k ∈ d.references, k ∈ ds.map Definition.key

def Acyclic (ds : List (Definition σ α)) : Prop := ∀ k, ¬ Relation.TransGen (Refers ds) k k

/-- The ways from a key along references all end, and they end in simple definitions. -/
inductive Grounded (ds : List (Definition σ α)) : RegistryKey → Prop
  | simple {label : Label} {source : σ} (h : .simple label source ∈ ds) : Grounded ds label.nameKey
  | merged {label : Label} {items : List (String × α)} (h : .merged label items ∈ ds)
      (hitems : items ≠ []) (hgrounded : ∀ item ∈ items, Grounded ds (label.region, item.1)) :
      Grounded ds label.nameKey

theorem acyclic_of_rank {ds : List (Definition σ α)} (rank : RegistryKey → Nat)
    (h : ∀ d ∈ ds, ∀ k ∈ d.references, rank k < rank d.key) : Acyclic ds := by
  have hdown : ∀ k k', Relation.TransGen (Refers ds) k k' → rank k' < rank k := by
    intro k k' hway
    induction hway with
    | single hstep =>
      obtain ⟨d, hd, rfl, hk⟩ := hstep
      exact h d hd _ hk
    | tail _ hstep ih =>
      obtain ⟨d, hd, rfl, hk⟩ := hstep
      exact Nat.lt_trans (h d hd _ hk) ih
  exact fun k hk => Nat.lt_irrefl _ (hdown k k hk)

section Order

variable {ds ds' : List (Definition σ α)}

theorem refers_perm (h : ds.Perm ds') : Refers ds = Refers ds' := by
  funext k k'
  exact propext (exists_congr fun d => and_congr_left fun _ => h.mem_iff)

theorem known_perm (h : ds.Perm ds') : Known ds ↔ Known ds' := by
  unfold Known
  simp only [h.mem_iff, (h.map Definition.key).mem_iff]

theorem acyclic_perm (h : ds.Perm ds') : Acyclic ds ↔ Acyclic ds' := by
  rw [Acyclic, refers_perm h, Acyclic]

theorem Grounded.of_subset (h : ds ⊆ ds') {k : RegistryKey} (hk : Grounded ds k) :
    Grounded ds' k := by
  induction hk with
  | simple hd => exact .simple (h hd)
  | merged hd hitems _ ih => exact .merged (h hd) hitems ih

end Order

end Gridding.Registry
