import Gridding.Cache.Memo
import Gridding.Grid.Description
import Gridding.Store.Signature
import Gridding.Surrogate.Layer
/-!
# Readers of files

A reader makes something of the contents of a file and answers questions about it. What it has made
of a file may be kept by name and signature, so that the file is not read again before its signature
changes.
-/

namespace Gridding

/-- What a file holds since it was last written. -/
structure Version (β τ : Type) where
  contents : β
  modified : τ

/-- The files there are, by their places. -/
abbrev Disk (β τ : Type) := Path → Option (Version β τ)

structure Reader (β α κ δ ε : Type) where
  parse : β → Except ε α
  answer : α → κ → Except ε δ

inductive ReadError (ε : Type) where
  | path (e : PathError)
  | noFile
  | contents (e : ε)

/-- What was made of files, by their names and signatures. -/
abbrev Shelf (α : Type) := Memo (String × Signature) α

namespace Reader

variable {β α κ δ ε τ : Type} [Moment τ]

def sign (folder : Path) (files : Disk β τ) (name : String) : Except (ReadError ε) Signature :=
  (Signature.read folder (fun p => (files p).map (·.modified)) (.text name)).mapError .path

/-- What there is to be made of a file. -/
def load (r : Reader β α κ δ ε) (folder : Path) (files : Disk β τ) (name : String) :
    Except (ReadError ε) α :=
  match files (Path.located folder name) with
  | some v => (r.parse v.contents).mapError .contents
  | none => .error .noFile

/-- The answer that a file gives. -/
def read (r : Reader β α κ δ ε) (folder : Path) (files : Disk β τ) (name : String) (question : κ) :
    Except (ReadError ε) δ := do
  let _ ← sign folder files name
  let a ← r.load folder files name
  (r.answer a question).mapError .contents

/-- The same, with what is kept of earlier reading. -/
def readKept (r : Reader β α κ δ ε) (folder : Path) (files : Disk β τ) (name : String)
    (question : κ) (shelf : Shelf α) : Except (ReadError ε) δ × Shelf α :=
  match sign folder files name with
  | .error e => (.error e, shelf)
  | .ok signature =>
    let (found, shelf) := shelf.ask (name, signature) fun key => r.load folder files key.1
    (found >>= fun a => (r.answer a question).mapError .contents, shelf)

end Reader

/-! ## Files that change -/

inductive FileEvent (β κ τ : Type) where
  | write (place : Path) (v : Version β τ)
  | read (name : String) (question : κ)

structure FileState (β α τ : Type) where
  files : Disk β τ
  shelf : Shelf α

namespace FileState

variable {β α κ δ ε τ : Type} [Moment τ]

/-- Neither is there a file nor has one been read. -/
def initial (retention : Retention) : FileState β α τ := ⟨fun _ => none, .new retention⟩

def step (r : Reader β α κ δ ε) (folder : Path) (s : FileState β α τ) :
    FileEvent β κ τ → FileState β α τ
  | .write place v => { s with files := fun p => if p = place then some v else s.files p }
  | .read name question => { s with shelf := (r.readKept folder s.files name question s.shelf).2 }

def run (r : Reader β α κ δ ε) (folder : Path) (s : FileState β α τ)
    (events : List (FileEvent β κ τ)) : FileState β α τ :=
  events.foldl (step r folder) s

end FileState

/-! ## What is read -/

namespace Description

inductive Extract where
  | names (names : List String)
  | parameters (system : List Float) (grid : GridEntry)
  deriving BEq, Repr

/-- Asked for no grid, a description gives the names of all. -/
def reader : Reader String Catalog (Option String) Extract Problem where
  parse := read
  answer c
    | none => .ok (.names c.gridNames)
    | some name => (c.lookUp name).map fun p => .parameters p.1 p.2

/-- How many descriptions are kept in memory. -/
def capacity : Int := 8

end Description

namespace Layer

/-- Layers come as a whole out of files of any format. -/
def reader {β ε : Type} (parse : β → Except ε Layer) : Reader β Layer Unit Layer ε :=
  ⟨parse, fun l _ => .ok l⟩

/-- How many layers are kept in memory. -/
def capacity : Int := 6

end Layer

end Gridding
