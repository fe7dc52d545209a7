import Gridding.Store.Home
/-!
# A directory of files

Names with what they stand for. A file is written under a temporary name in pieces and takes its
own name when it is complete, so that nobody sees part of it.
-/

namespace Gridding.Store

inductive Entry (β : Type) where
  | file (content : List β)
  | folder
  deriving Repr

inductive StoreError where
  | isFolder
  | nameTooLong
  /-- The disk does not take what is written. -/
  | refused
  deriving DecidableEq, Repr

structure Directory (β : Type) where
  entries : List (String × Entry β)
  deriving Repr

namespace Directory

variable {β : Type}

def empty : Directory β := ⟨[]⟩

def find? (d : Directory β) (name : String) : Option (Entry β) := d.entries.lookup name

def names (d : Directory β) : List String := d.entries.map (·.1)

def remove (d : Directory β) (name : String) : Directory β :=
  ⟨d.entries.filter fun e => !(e.1 == name)⟩

def assign (d : Directory β) (name : String) (e : Entry β) : Directory β :=
  ⟨(d.remove name).entries ++ [(name, e)]⟩

def isNameTooLong (name : String) : Bool := name.utf8ByteSize > longestName

/-- The content of a file, if there is something of that name. -/
def read (d : Directory β) (name : String) : Except StoreError (Option (List β)) :=
  if isNameTooLong name then .error .nameTooLong
  else
    match d.find? name with
    | none => .ok none
    | some .folder => .error .isFolder
    | some (.file content) => .ok (some content)

/-- What a writer does to a directory. -/
inductive Write (β : Type) where
  | create (name : String)
  | append (name : String) (piece : List β)
  | rename (name target : String)

def write (d : Directory β) : Write β → Except StoreError (Directory β)
  | .create name =>
    if isNameTooLong name then .error .nameTooLong else .ok (d.assign name (.file []))
  | .append name piece =>
    match d.find? name with
    | some (.file content) => .ok (d.assign name (.file (content ++ piece)))
    | some .folder => .error .isFolder
    | none => .ok d
  | .rename name target =>
    if isNameTooLong target then .error .nameTooLong
    else
      match d.find? target, d.find? name with
      | some .folder, _ => .error .isFolder
      | _, some e => .ok ((d.remove name).assign target e)
      | _, none => .ok d

/-- The writes by which a file comes into being: under a temporary name, piece by piece, and then
under its own. -/
def publication (temporary target : String) (pieces : List (List β)) : List (Write β) :=
  .create temporary :: pieces.map (.append temporary) ++ [.rename temporary target]

/-- One write of a publication. If the file cannot take its own name, it is removed. -/
def attempt (refused : Bool) (d : Directory β) (w : Write β) :
    Except StoreError Unit × Directory β :=
  match if refused then .error .refused else d.write w with
  | .ok d => (.ok (), d)
  | .error e =>
    match w with
    | .rename name _ => (.error e, d.remove name)
    | _ => (.error e, d)

/-- Goes on until a write fails. The disk may refuse one of them, after `stop` others. -/
def publishUntil (stop : Option Nat) (d : Directory β) :
    List (Write β) → Except StoreError Unit × Directory β
  | [] => (.ok (), d)
  | w :: ws =>
    match attempt (stop == some 0) d w with
    | (.error e, d) => (.error e, d)
    | (.ok _, d) => publishUntil (stop.map (· - 1)) d ws

end Directory

end Gridding.Store
