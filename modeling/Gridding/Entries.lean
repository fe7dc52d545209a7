/-!
# Entries in order

A list of keys with their values, in the order in which the keys first came. The first entry of a
key counts.
-/

namespace Gridding.Entries

variable {κ α : Type} [BEq κ]

/-- Gives a key a value: in its place if it has one, at the end otherwise. -/
def put (key : κ) (value : α) : List (κ × α) → List (κ × α)
  | [] => [(key, value)]
  | e :: es => if e.1 == key then (key, value) :: es else e :: put key value es

end Gridding.Entries
