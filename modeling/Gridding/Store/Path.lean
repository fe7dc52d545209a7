/-!
# Paths

A path has a root, which is empty for a relative one, and parts in which neither empty names nor `.`
occur.
-/

namespace Gridding

structure Path where
  root : String
  parts : List String
  deriving DecidableEq, Repr

namespace Path

def isPart (s : String) : Bool := s != "" && s != "."

/-- Two slashes in front are a root of their own, any other number of them is the usual one. -/
def ofText (s : String) : Path :=
  let root :=
    if s.startsWith "//" && !s.startsWith "///" then "//" else if s.startsWith "/" then "/" else ""
  ⟨root, (s.splitOn "/").filter isPart⟩

def isAbsolute (p : Path) : Bool := p.root != ""

def text (p : Path) : String :=
  let s := p.root ++ "/".intercalate p.parts
  if s.isEmpty then "." else s

/-- The path seen from a folder. -/
def under (p folder : Path) : Path :=
  if p.isAbsolute then p else ⟨folder.root, folder.parts ++ p.parts⟩

/-- One part after those already resolved, which are in reverse order. -/
def enter (absolute : Bool) (done : List String) (part : String) : List String :=
  if part = ".." then
    match done with
    | [] => if absolute then [] else [".."]
    | last :: rest => if last = ".." then ".." :: done else rest
  else part :: done

/-- Takes each `..` for a step back, without looking at the files. -/
def resolved (p : Path) : Path :=
  ⟨p.root, (p.parts.foldl (enter p.isAbsolute) []).reverse⟩

/-- The resolved folders on the way along the path, the last one being the path itself. -/
def passed (p : Path) : List Path :=
  (List.range (p.parts.length + 1)).map fun n => (⟨p.root, p.parts.take n⟩ : Path).resolved

end Path

end Gridding
