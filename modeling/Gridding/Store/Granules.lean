import Gridding.Document.Display
import Gridding.Store.Directory
import Gridding.Text.Slug
/-!
# The store of granules

Each key has one file, named by its slug. What is stored under a key is read back instead of being
built again.
-/

namespace Gridding.Store

/-- The text of a key; one that is not given is empty. -/
def keyText (key : Document) : String := if key.isGiven then key.display else ""

def fileName (key : String) : String := Text.slug key ++ ".srg"

/-- Where the file of a key lies in a folder. -/
def filePath (folder : Path) (key : String) : Path := (Path.ofText (fileName key)).under folder

/-- A name for what is being written; `mark` tells writers of one key apart. -/
def temporaryName (key mark : String) : String := Text.slug key ++ mark ++ ".tmp"

variable {β : Type}

namespace Directory

def get (d : Directory β) (key : String) : Except StoreError (Option (List β)) :=
  d.read (fileName key)

def put (d : Directory β) (key : String) (content : List β) :
    Except StoreError Unit × Directory β :=
  d.publishUntil none (publication (temporaryName key "00000000") (fileName key) [content])

section

variable {σ α ε : Type}

/-- The stored value of a key, or else a new one, which is then stored. -/
def loadOrBuild (refuse : StoreError → ε) (encode : α → List β)
    (decode : List β → Except ε α) (key : String) (build : σ → Except ε α × σ)
    (d : Directory β) (s : σ) : Except ε α × Directory β × σ :=
  match d.get key with
  | .error e => (.error (refuse e), d, s)
  | .ok (some content) => (decode content, d, s)
  | .ok none =>
    match build s with
    | (.error e, s) => (.error e, d, s)
    | (.ok a, s) =>
      match d.put key (encode a) with
      | (.error e, d) => (.error (refuse e), d, s)
      | (.ok _, d) => (.ok a, d, s)

end

end Directory

end Gridding.Store
