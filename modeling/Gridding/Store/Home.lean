import Gridding.Store.Path
/-!
# Where a store is kept

The folder asked for comes first, then one among the temporary files; the first that can be made is
taken.
-/

namespace Gridding.Store

/-- The longest name of a file, in bytes. -/
def longestName : Nat := 255

/-- Can a folder be made where a plain file lies at `block`? -/
def canMake (block : Option Path) (p : Path) : Bool :=
  p.parts.all (·.utf8ByteSize ≤ longestName) &&
    match block with
    | some b => !p.passed.contains b.resolved
    | none => true

def candidates (configured : Option String) (temporary : Path) : List Path :=
  ((configured.filter (!·.isEmpty)).map Path.ofText).toList ++
    [(Path.ofText "smksrg_cache").under temporary]

def home (configured : Option String) (temporary : Path) (block : Option Path) : Option Path :=
  (candidates configured temporary).find? (canMake block)

end Gridding.Store
