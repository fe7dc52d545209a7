import Gridding.Entries
import Gridding.Numeric.Reading
/-!
# Grid descriptions

A description lists coordinate systems and grids. A name stands in quotes on a line of its own and
its numbers on the next one; the part after an exclamation mark is a comment. The first block ends
with a blank name. Names are compared after cleaning: without comment, quotes and commas, and with
single blanks between words.
-/

namespace Gridding.Description

def isQuoteMark (c : Char) : Bool := c == '\'' || c == '\x60' || c == ','

def withoutComment (cs : List Char) : List Char := cs.takeWhile (· != '!')

/-- Every run of blanks becomes one space. -/
def squeeze : List Char → List Char
  | [] => []
  | [c] => [if Text.isBlank c then ' ' else c]
  | c :: d :: rest =>
    if Text.isBlank c then
      if Text.isBlank d then squeeze (d :: rest) else ' ' :: squeeze (d :: rest)
    else c :: squeeze (d :: rest)

def trimmed (cs : List Char) : List Char := Text.trimBoth Text.isBlank cs

def cleanChars (cs : List Char) : List Char :=
  trimmed (squeeze ((trimmed (withoutComment cs)).filter fun c => !isQuoteMark c))

def cleanName (s : String) : String := String.ofList (cleanChars s.toList)

/-- A number whose exponent may be marked with `D`. -/
def readNumber? (s : String) : Option Float :=
  let plain (c : Char) : Char := if c == 'D' then 'E' else if c == 'd' then 'e' else c
  readFloat? (String.ofList (s.toList.map plain))

/-- The lines of a text; a carriage return, alone or before a line feed, ends a line too. -/
def lines (text : String) : List (List Char) :=
  let rec go : List Char → List Char → List (List Char)
    | [], [] => []
    | line, [] => [line.reverse]
    | line, '\r' :: '\n' :: rest => line.reverse :: go [] rest
    | line, '\r' :: rest => line.reverse :: go [] rest
    | line, '\n' :: rest => line.reverse :: go [] rest
    | line, c :: rest => go (c :: line) rest
  go [] text.toList

inductive Problem where
  | noTerminator
  | noGrids
  | notANumber
  | unknownGrid (name : String) (available : List String)
  | unknownSystem (name grid : String)
  deriving DecidableEq, Repr

/-- The wording of a problem that has one. -/
def Problem.message? : Problem → Option String
  | noTerminator => some "Missing coordinate block terminator (' ')"
  | noGrids => some "No grids found in the GRIDDESC file."
  | notANumber => none
  | unknownGrid name available =>
    some ("Grid '" ++ name ++ "' not found. Available: " ++ ", ".intercalate available)
  | unknownSystem name grid =>
    some ("Projection '" ++ name ++ "' referenced by grid '" ++ grid ++
      "' not defined in coords section.")

/-- A grid refers to its coordinate system by name. -/
structure GridEntry where
  system : String
  numbers : List Float
  deriving BEq, Repr

/-- The entries of a description by their cleaned names, in order of first appearance. -/
structure Catalog where
  systems : List (String × List Float)
  grids : List (String × GridEntry)
  deriving BEq, Repr

def startsQuoted (line : List Char) : Bool := (trimmed line).head? == some '\''

/-- Is the line a blank name? -/
def isTerminator (line : List Char) : Bool := (cleanChars line).isEmpty && startsQuoted line

def numbersOf (tokens : List (List Char)) : Except Problem (List Float) :=
  tokens.mapM fun t =>
    match readNumber? (String.ofList t) with
    | some x => .ok x
    | none => .error .notANumber

/-- The parts of a line between separators, the empty ones left out. -/
def tokensBy (isSeparator : Char → Bool) (cs : List Char) : List (List Char) :=
  let rec go : List Char → List Char → List (List Char)
    | token, [] => [token.reverse]
    | token, c :: rest =>
      if isSeparator c then token.reverse :: go [] rest else go (c :: token) rest
  (go [] cs).filter fun t => !t.isEmpty

/-- The numbers of a coordinate system, between commas and blanks. -/
def systemNumbers (line : List Char) : Except Problem (List Float) :=
  numbersOf (tokensBy (fun c => c == ',' || Text.isBlank c) (withoutComment line))

/-- The coordinate systems of the first block. A quoted line is a name even if it is blank. -/
def readSystems : List (List Char) → List (String × List Float) →
    Except Problem (List (String × List Float))
  | [], found => .ok found
  | [_], found => .ok found
  | name :: values :: rest, found =>
    if startsQuoted name then do
      let numbers ← systemNumbers values
      readSystems rest (Entries.put (String.ofList (cleanChars name)) numbers found)
    else readSystems (values :: rest) found

/-- The parts of a grid line between commas, trimmed, the blank ones left out. -/
def gridParts (line : List Char) : List (List Char) :=
  ((tokensBy (· == ',') (withoutComment line)).map trimmed).filter fun t => !t.isEmpty

def readGrids : List (List Char) → List (String × GridEntry) →
    Except Problem (List (String × GridEntry))
  | [], found => .ok found
  | [_], found => .ok found
  | name :: values :: rest, found =>
    if startsQuoted name && !isTerminator name then
      match gridParts values with
      | [] => readGrids rest found
      | system :: numbers => do
        let numbers ← numbersOf numbers
        readGrids rest (Entries.put (String.ofList (cleanChars name))
          ⟨String.ofList (cleanChars system), numbers⟩ found)
    else readGrids (values :: rest) found

def read (text : String) : Except Problem Catalog :=
  match lines text with
  | [] => .error .noTerminator
  | first :: rest =>
    let block := rest.takeWhile fun l => !isTerminator l
    match rest.dropWhile fun l => !isTerminator l with
    | [] => .error .noTerminator
    | _ :: after => do
      let systems ← readSystems (if isTerminator first then block else first :: block) []
      let grids ← readGrids after []
      if grids.isEmpty then .error .noGrids else return ⟨systems, grids⟩

namespace Catalog

def gridNames (c : Catalog) : List String := c.grids.map (·.1)

/-- The numbers of the coordinate system of a grid, and the grid's own entry. -/
def lookUp (c : Catalog) (name : String) : Except Problem (List Float × GridEntry) :=
  let cleaned := cleanName name
  match c.grids.lookup cleaned with
  | none => .error (.unknownGrid name (c.gridNames.mergeSort fun a b => a ≤ b))
  | some entry =>
    match c.systems.lookup entry.system with
    | none => .error (.unknownSystem entry.system cleaned)
    | some numbers => .ok (numbers, entry)

end Catalog

end Gridding.Description
