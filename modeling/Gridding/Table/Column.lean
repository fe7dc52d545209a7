import Gridding.Document.Display
import Gridding.Numeric.IntegerPart
import Gridding.Text.Blank
/-!
# Columns and their keys

A column is a named list of values under one storage type. The key of a value is the text by which
filters compare it: a whole number is its digits however it is stored, other numbers are written
shortest, texts are trimmed, and what is missing or blank has no key.
-/

namespace Gridding

inductive Storage where
  | integers
  | doubles
  | singles
  | mixed
  deriving DecidableEq, Repr, Inhabited

/-- The storage of columns of a named data type. -/
def Storage.ofName (name : String) : Storage :=
  match name.toLower with
  | "float64" => .doubles
  | "float32" => .singles
  | s => if s.startsWith "int" || s.startsWith "uint" then .integers else .mixed

structure Column where
  name : String
  storage : Storage
  values : List Document
  deriving Repr, Inhabited

namespace Column

/-- The number a value of a column of numbers stands for; a missing one is NaN. -/
def toFloat : Document → Float
  | .integer n => floatOfInt n
  | .number x => x
  | .bool b => if b then 1.0 else 0.0
  | _ => 0.0 / 0.0

/-- The integer nearest to a value, a half going to the even neighbour. -/
def nearestInteger (b : Binary) : Int :=
  let (n, d) := b.ratio
  if n < 0 then -(roundDiv n.natAbs d .toEven : Int) else roundDiv n.natAbs d .toEven

/-- Is a number so near to a whole one that it counts as whole? The slack is `1e-8` and a
hundred-thousandth of the whole number. -/
def isNearlyWhole (x whole : Float) : Bool :=
  (x - whole).abs ≤ 1e-8 + 1e-5 * whole.abs

/-- Digits of a whole number of 64 bits; beyond them there is only the least of these. -/
def wordDigits (n : Int) : String :=
  if -(Int.pow 2 63) ≤ n && n < Int.pow 2 63 then toString n else toString (-(Int.pow 2 63) : Int)

/-- The key of a number in a column of doubles, `written` being its plain text. -/
def numberKey (x : Float) (written : String) : Option String :=
  if x.isNaN then none
  else
    match Binary.ofFloat? x with
    | some b =>
      let n := nearestInteger b
      if isNearlyWhole x (floatOfInt n) then some (wordDigits n) else some written
    | none => some written

private def nonEmpty (s : String) : Option String := if s.isEmpty then none else some s

/-- The key of a value in a column that may hold anything. -/
def valueKey : Document → Option String
  | .null => none
  | .bool b => some (if b then "1" else "0")
  | .integer n => some (toString n)
  | .number x =>
    if x.isNaN then none
    else
      match Binary.ofFloat? x with
      | some b => some (if b.isWhole then toString b.truncate else Decimal.shortest x)
      | none => some (Decimal.shortest x)
  | d => nonEmpty (Text.trim d.display)

def key (storage : Storage) (d : Document) : Option String :=
  match storage with
  | .integers => match d with
    | .integer n => some (toString n)
    | .number x => (integerPart? x).toOption.map toString
    | .bool b => some (if b then "1" else "0")
    | _ => none
  | .doubles => numberKey (toFloat d) (Decimal.shortest (toFloat d))
  | .singles =>
    let x := (toFloat d).toFloat32.toFloat
    numberKey x (Decimal.shortestSingle x)
  | .mixed => valueKey d

def keys (c : Column) : List (Option String) := c.values.map (key c.storage)

/-- The keys of a column, unless it has integers of more than 64 bits with sign. -/
def keys? (c : Column) : Option (List (Option String)) :=
  let fits : Document → Bool
    | .integer n => c.storage != .integers || (-(Int.pow 2 63) ≤ n && n < Int.pow 2 63)
    | _ => true
  if c.values.all fits then some c.keys else none

/-- The storage chosen for plain values: integers if all are, doubles if all are numbers or missing
and at least one is there, else mixed. Integers of 64 bits count as numbers, with or without sign,
but not both kinds together. -/
def inferStorage (ds : List Document) : Storage :=
  let isBetween (low high : Int) : Document → Bool
    | .integer n => low ≤ n && n < high
    | _ => false
  let isOther : Document → Bool
    | .number _ => true
    | .null => true
    | _ => false
  let isMissing : Document → Bool
    | .null => true
    | _ => false
  let haveRange (low high : Int) : Bool := ds.all fun d => isOther d || isBetween low high d
  let inWords := haveRange (-(Int.pow 2 63)) (Int.pow 2 63) || haveRange 0 (Int.pow 2 64)
  if ds.all isMissing || !inWords then .mixed
  else if ds.any isOther then .doubles
  else .integers

/-- The values at the given rows. -/
def select (c : Column) (rows : List Nat) : Column :=
  let vs := c.values.toArray
  { c with values := rows.map fun i => vs.getD i .null }

end Column

end Gridding
