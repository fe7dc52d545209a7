import Gridding.Document.Display
import Gridding.Numeric.IntegerPart
import Gridding.Store.Path
/-!
# Signatures of files

A signature tells the contents of a file from earlier ones by the full second of its last change.
Times are doubles in the running program; all that a signature takes of them is their full second.
-/

namespace Gridding

structure Signature where
  path : String
  modified : Option Int
  deriving DecidableEq, Repr

inductive PathError where
  | nullCharacter
  deriving DecidableEq, Repr

class Moment (τ : Type) where
  /-- The part of a time before the fraction of a second, if it is finite. -/
  second? : τ → Option Int

instance : Moment Float where
  second? t := (integerPart? t).toOption

/-- Where a name leads from a folder. -/
def Path.located (folder : Path) (name : String) : Path := ((Path.ofText name).under folder).resolved

/-- The signature of what is named, given the times of change of the files there are. Something that
is not a text has no file. -/
def Signature.read {τ : Type} [Moment τ] (folder : Path) (modified : Path → Option τ) :
    Document → Except PathError Signature
  | .text s =>
    let p := Path.located folder s
    if s.toList.contains '\x00' then .error .nullCharacter
    else .ok ⟨p.text, (modified p).bind Moment.second?⟩
  | d => .ok ⟨d.display, none⟩

end Gridding
