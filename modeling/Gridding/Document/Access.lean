import Gridding.Document.Basic
import Gridding.Numeric.IntegerPart
import Gridding.Numeric.Reading
/-!
# What a document holds

Members that are not there are null. A number may be written as `nan`, `inf` or `-inf`.
-/

namespace Gridding.Document

def field (d : Document) (name : String) : Document := (d.member? name).getD null

def has (d : Document) (name : String) : Bool := (d.member? name).isSome

def isNull : Document → Bool
  | null => true
  | _ => false

def items : Document → List Document
  | list ds => ds
  | _ => []

def members : Document → List (String × Document)
  | object ms => ms
  | _ => []

def text? : Document → Option String
  | text s => some s
  | _ => none

def integer? : Document → Option Int
  | integer n => some n
  | _ => none

/-- Is the value `true`? -/
def isTrue : Document → Bool
  | bool b => b
  | _ => false

def isFalse : Document → Bool
  | bool b => !b
  | _ => false

/-- A text or the digits of an integer. -/
def wording : Document → String
  | text s => s
  | integer n => toString n
  | _ => ""

def float : Document → Float
  | integer n => floatOfInt n
  | number x => x
  | bool b => if b then 1.0 else 0.0
  | text "inf" => 1.0 / 0.0
  | text "-inf" => -1.0 / 0.0
  | _ => 0.0 / 0.0

def floatOr (default : Float) : Document → Float
  | null => default
  | d => d.float

/-- The integer part of a number, or the integer that a text holds. -/
def toInteger (d : Document) : Except NumberError Int :=
  match d with
  | integer n => .ok n
  | text s =>
    match readInteger? s with
    | some n => .ok n
    | none => integerPart? d.float
  | d => integerPart? d.float

/-- An integer, or zero. -/
def whole (d : Document) : Int := d.toInteger.toOption.getD 0

end Gridding.Document
