import Gridding.Region.Basic
/-!
# Regions that break

A frail region breaks after it has been intersected a number of times, the last time without a
result; what is left of it until then is as frail.
-/

namespace Gridding

structure Frail (ρ : Type) where
  region : ρ
  /-- The number of intersections it stands, if there is a limit. -/
  stands : Option Nat

inductive FrailError (ε : Type) where
  | broken
  | region (e : ε)
  deriving Repr

namespace Frail

variable {ρ α ε : Type}

def sound (r : ρ) : Frail ρ := ⟨r, none⟩

instance [Region ρ α ε] : Region (Frail ρ) α (FrailError ε) where
  dimension r := Region.dimension r.region
  isNear a b := Region.isNear a.region b.region
  meets a b := Region.meets a.region b.region
  meet a b :=
    match a.stands with
    | some 0 => .error .broken
    | stands =>
      match Region.meet a.region b.region with
      | .ok r => .ok ⟨r, stands.map (· - 1)⟩
      | .error e => .error (.region e)
  measure d r := Region.measure d r.region
  covers a b := Region.covers a.region b.region
  union rs :=
    match Region.union (rs.map (·.region)) with
    | .ok r => .ok (sound r)
    | .error e => .error (.region e)
  parts r := (Region.parts r.region).map fun p => ⟨p, r.stands⟩
  isPoint r := Region.isPoint r.region

end Frail

end Gridding
