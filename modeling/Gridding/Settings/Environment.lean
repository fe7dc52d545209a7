import Gridding.Numeric.Reading
/-!
# Settings in environment variables

A variable may be unset. A flag is on for the words `1`, `true`, `yes` and `on` in any case of
letters; an integer that cannot be read counts as unset.
-/

namespace Gridding.Environment

def onWords : List String := ["1", "true", "yes", "on"]

def flag : Option String → Bool
  | some text => onWords.contains (Text.trim text).toLower
  | none => false

def integer? : Option String → Option Int
  | some text => readInteger? text
  | none => none

end Gridding.Environment
