/-!
# Blank characters

Spaces, line ends and separators of all scripts, and how text is trimmed of them.
-/

namespace Gridding.Text

def blanks : List Nat :=
  [9, 10, 11, 12, 13, 28, 29, 30, 31, 32, 133, 160, 5760, 8192, 8193, 8194, 8195, 8196, 8197, 8198,
   8199, 8200, 8201, 8202, 8232, 8233, 8239, 8287, 12288]

def isBlank (c : Char) : Bool := blanks.contains c.toNat

/-- Drops the characters with the property from both ends. -/
def trimBoth (p : Char → Bool) (cs : List Char) : List Char :=
  ((cs.dropWhile p).reverse.dropWhile p).reverse

def trim (s : String) : String := String.ofList (trimBoth isBlank s.toList)

end Gridding.Text
