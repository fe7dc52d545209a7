import Gridding.Text.Alphanumeric
import Gridding.Text.Blank
/-!
# File names for arbitrary keys

A slug keeps letters, digits, `-`, `_` and `.`, puts `_` for everything else and neither begins nor
ends with `_` or `.`; a key of which nothing is left becomes `default`.
-/

namespace Gridding.Text

def isSlugChar (c : Char) : Bool := isAlphanumeric c || c == '-' || c == '_' || c == '.'

def isSlugEdge (c : Char) : Bool := c == '_' || c == '.'

def slugChars (cs : List Char) : List Char :=
  let kept := trimBoth isSlugEdge (cs.map fun c => if isSlugChar c then c else '_')
  if kept.isEmpty then "default".toList else kept

def slug (key : String) : String := String.ofList (slugChars key.toList)

end Gridding.Text
