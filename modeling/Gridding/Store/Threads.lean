import Gridding.Store.Granules
/-!
# Threads that share a store

A thread puts a content write by write, or looks whether a key has a file and then reads it. `step`
makes one step of one thread and tells what comes of it; an order of such steps is an order in which
threads may take turns.
-/

namespace Gridding.Store

/-- What a thread is in the middle of. -/
inductive Activity (β : Type) where
  | idle
  | putting (key : String) (content : List β) (writes : List (Directory.Write β))
  /-- The key was found to have a file, which is yet to be read. -/
  | getting (key : String)

inductive Turn (β : Type) where
  /-- Begins to put a content, to be written in pieces under a name with a mark. -/
  | put (thread : Nat) (key mark : String) (pieces : List (List β))
  /-- The next write, which the disk may refuse. -/
  | write (thread : Nat) (refused : Bool)
  /-- Begins to get a content. -/
  | look (thread : Nat) (key : String)
  | read (thread : Nat)

inductive Event (β : Type) where
  | underway
  | put (key : String) (content : List β) (result : Except StoreError Unit)
  | got (key : String) (result : Except StoreError (Option (List β)))

structure Threads (β : Type) where
  directory : Directory β
  activity : Nat → Activity β

namespace Threads

variable {β : Type}

def initial (d : Directory β) : Threads β := ⟨d, fun _ => .idle⟩

def setActivity (s : Threads β) (thread : Nat) (a : Activity β) : Threads β :=
  { s with activity := fun t => if t = thread then a else s.activity t }

/-- A file is made under a name that is not in use. -/
def isFree (d : Directory β) : Directory.Write β → Bool
  | .create name => (d.find? name).isNone
  | _ => true

def step (s : Threads β) : Turn β → Option (Event β × Threads β)
  | .put t key mark pieces =>
    match s.activity t with
    | .idle =>
      let writes := Directory.publication (temporaryName key mark) (fileName key) pieces
      some (.underway, s.setActivity t (.putting key pieces.flatten writes))
    | _ => none
  | .write t refused =>
    match s.activity t with
    | .putting key content (w :: ws) =>
      if isFree s.directory w then
        let (result, directory) := Directory.attempt refused s.directory w
        let s := { s with directory }
        some (match result, ws with
          | .error e, _ => (.put key content (.error e), s.setActivity t .idle)
          | .ok _, [] => (.put key content (.ok ()), s.setActivity t .idle)
          | .ok _, ws => (.underway, s.setActivity t (.putting key content ws)))
      else none
    | _ => none
  | .look t key =>
    match s.activity t with
    | .idle =>
      some (
        if Directory.isNameTooLong (fileName key) then (.got key (.error .nameTooLong), s)
        else
          match s.directory.find? (fileName key) with
          | some _ => (.underway, s.setActivity t (.getting key))
          | none => (.got key (.ok none), s))
    | _ => none
  | .read t =>
    match s.activity t with
    | .getting key => some (.got key (s.directory.get key), s.setActivity t .idle)
    | _ => none

/-- One more turn after those of a history. -/
def advance : List (Turn β × Event β) × Threads β → Turn β →
    Option (List (Turn β × Event β) × Threads β) := fun (history, s) turn =>
  (s.step turn).map fun (event, s) => (history ++ [(turn, event)], s)

/-- What came of some turns, and the state after them, if each is possible when it comes. -/
def run (s : Threads β) (turns : List (Turn β)) :
    Option (List (Turn β × Event β) × Threads β) :=
  turns.foldlM advance ([], s)

end Threads

end Gridding.Store
