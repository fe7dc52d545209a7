import Gridding.Surrogate.Basic
import Mathlib.Algebra.Group.Defs
import Mathlib.Data.List.Basic

/-!
# Leaves of surrogates

The simple surrogates that a surrogate is made of, from left to right, each with the product of the
multipliers on the way to it.
-/

namespace Gridding

structure Leaf (σ α : Type) where
  label : Label
  source : σ
  factor : α

namespace Leaf

variable {σ α : Type} [Mul α]

def scale (l : Leaf σ α) (multiplier : α) : Leaf σ α := ⟨l.label, l.source, l.factor * multiplier⟩

end Leaf

namespace Surrogate

variable {σ α : Type}

/-- What holds of simple surrogates, and of merged ones if it does of their components, holds of all. -/
@[elab_as_elim, induction_eliminator]
theorem ind {motive : Surrogate σ α → Prop} (simple : ∀ label source, motive (simple label source))
    (merged : ∀ label components, (∀ c ∈ components, motive c.1) → motive (merged label components))
    (s : Surrogate σ α) : motive s :=
  @Surrogate.rec σ α motive (fun cs => ∀ c ∈ cs, motive c.1) (fun c => motive c.1) simple merged
    (fun _ h => absurd h List.not_mem_nil) (fun _ _ hc hcs => List.forall_mem_cons.mpr ⟨hc, hcs⟩)
    (fun _ _ h => h) s

section Leaves

variable [One α] [Mul α]

mutual

def leaves : Surrogate σ α → List (Leaf σ α)
  | simple label source => [⟨label, source, 1⟩]
  | merged _ components => leavesOfAll components

def leavesOfAll : List (Surrogate σ α × α) → List (Leaf σ α)
  | [] => []
  | (c, m) :: cs => (leaves c).map (·.scale m) ++ leavesOfAll cs

end

end Leaves

mutual

/-- Is no merged surrogate in this one without components? -/
def HasComponents : Surrogate σ α → Prop
  | simple _ _ => True
  | merged _ components => components ≠ [] ∧ AllHaveComponents components

def AllHaveComponents : List (Surrogate σ α × α) → Prop
  | [] => True
  | (c, _) :: cs => HasComponents c ∧ AllHaveComponents cs

end

end Surrogate

end Gridding
