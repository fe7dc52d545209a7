import Gridding.Document.Reader
import Gridding.Document.Writer
/-!
# The settings file

Settings are an object in a text file. Loading never fails: whatever is not an object in a readable
file counts as no settings. Saving writes the file in place and reports nothing; `saveUntil` says
what is left behind where it stops early.
-/

namespace Gridding

/-- What stands in the place of the settings file. -/
inductive SettingsFile where
  | absent
  | text (content : String)
  /-- The bytes are no text. -/
  | undecodable
  | folder
  /-- The folder of the file cannot be made. -/
  | unreachable
  deriving DecidableEq, Repr, Inhabited

/-- Where saving stops: the file is not opened, or no more of the text can be written, or the value
whose text comes next cannot be encoded. -/
inductive SaveFault where
  | beforeOpening
  | afterWriting (characters : Nat)
  deriving DecidableEq, Repr

namespace SettingsFile

def load : SettingsFile → List (String × Document)
  | .text content =>
    match Document.read? content with
    | some (.object members) => members
    | _ => []
  | _ => []

def save (settings : Document) : SettingsFile → SettingsFile
  | .folder => .folder
  | .unreachable => .unreachable
  | _ => .text settings.write

/-- Opening empties the file, and the text is written from its start. -/
def saveUntil (fault : SaveFault) (settings : Document) (file : SettingsFile) : SettingsFile :=
  match fault, file with
  | .beforeOpening, _ => file
  | _, .folder => .folder
  | _, .unreachable => .unreachable
  | .afterWriting n, _ => .text (String.ofList (settings.write.toList.take n))

end SettingsFile

end Gridding
