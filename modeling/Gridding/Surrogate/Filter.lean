import Gridding.Table.Column
/-!
# Row filters

A filter keeps the rows whose key in one column is, or is not, among the given values. Its text is
`COLUMN=a,b` or `COLUMN!=a,b`; blank text and `NONE` stand for no filter.
-/

namespace Gridding

structure RowFilter where
  column : String
  equal : Bool
  values : List String
  deriving DecidableEq, Repr

inductive FilterError where
  | noOperator (text : String)
  | noColumn (text : String)
  | unknownColumn (column : String) (available : List String)
  deriving DecidableEq, Repr

def FilterError.message : FilterError → String
  | noOperator text =>
    "invalid surrogate filter " ++ Text.quoted text ++ ": expected column=values or column!=values"
  | noColumn text => "invalid surrogate filter " ++ Text.quoted text ++ ": missing column name"
  | unknownColumn column available =>
    "surrogate filter column '" ++ column ++ "' not found; available: " ++ Text.quotedList available

namespace RowFilter

/-- The parts before and after the first `!=`. -/
def cutUnequal : List Char → Option (List Char × List Char)
  | '!' :: '=' :: rest => some ([], rest)
  | c :: rest => (cutUnequal rest).map fun p => (c :: p.1, p.2)
  | [] => none

/-- The parts before and after the first `=`. -/
def cutEqual : List Char → Option (List Char × List Char)
  | '=' :: rest => some ([], rest)
  | c :: rest => (cutEqual rest).map fun p => (c :: p.1, p.2)
  | [] => none

/-- The parts of a text between commas. -/
def splitCommas : List Char → List (List Char)
  | [] => [[]]
  | c :: rest =>
    match splitCommas rest with
    | [] => [[c]]
    | part :: parts => if c == ',' then [] :: part :: parts else (c :: part) :: parts

def trimmed (cs : List Char) : List Char := Text.trimBoth Text.isBlank cs

def noFilter : String := "NONE"

/-- Reads a trimmed filter text. An `!=` anywhere wins over an earlier `=`. -/
def ofTrimmed (cs : List Char) : Except FilterError RowFilter :=
  let build (equal : Bool) (p : List Char × List Char) : Except FilterError RowFilter :=
    let column := trimmed p.1
    if column.isEmpty then .error (.noColumn (String.ofList cs))
    else .ok ⟨String.ofList column, equal,
      (splitCommas p.2).map fun v => String.ofList (trimmed v)⟩
  match cutUnequal cs with
  | some p => build false p
  | none =>
    match cutEqual cs with
    | some p => build true p
    | none => .error (.noOperator (String.ofList cs))

def parse (text : String) : Except FilterError (Option RowFilter) :=
  let cs := trimmed text.toList
  if cs.isEmpty || String.ofList cs == noFilter then .ok none
  else (ofTrimmed cs).map some

/-- The filter a document asks for: none if it is null, else that of its text. -/
def ofDocument : Document → Except FilterError (Option RowFilter)
  | .null => .ok none
  | d => parse d.display

def text (f : RowFilter) : String :=
  f.column ++ (if f.equal then "=" else "!=") ++ ",".intercalate f.values

def keeps (f : RowFilter) (key : Option String) : Bool :=
  let listed := match key with
    | some k => f.values.contains k
    | none => false
  if f.equal then listed else !listed

/-- The positions of the kept rows. -/
def rows (f : RowFilter) (columns : List Column) (available : List String) :
    Except FilterError (List Nat) :=
  match columns.find? fun c => c.name == f.column with
  | none => .error (.unknownColumn f.column available)
  | some c =>
    .ok (((List.range c.values.length).zip c.keys).filterMap fun p =>
      if f.keeps p.2 then some p.1 else none)

end RowFilter

end Gridding
