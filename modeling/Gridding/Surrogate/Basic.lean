/-!
# Surrogates

A surrogate is simple, with a source of granules, or merged, that is a weighted sum of other
surrogates. Each has a label; region and code together identify it.
-/

namespace Gridding

structure Label where
  region : String
  code : String
  name : String
  deriving DecidableEq, Repr

def Label.identifier (l : Label) : String := l.region ++ l.code

inductive Surrogate (σ α : Type) where
  | simple (label : Label) (source : σ)
  | merged (label : Label) (components : List (Surrogate σ α × α))

namespace Surrogate

variable {σ α : Type}

def label : Surrogate σ α → Label
  | simple l _ => l
  | merged l _ => l

def isMerged : Surrogate σ α → Bool
  | simple _ _ => false
  | merged _ _ => true

def components : Surrogate σ α → List (Surrogate σ α × α)
  | simple _ _ => []
  | merged _ cs => cs

def multipliers (s : Surrogate σ α) : List α := s.components.map (·.2)

end Surrogate

end Gridding
