import Gridding.Document.Display
import Gridding.Numeric.IntegerPart
import Gridding.Numeric.Reading
/-!
# Grid attributes of a data file

The global attributes of a gridded data file name the grid, its coordinate system and its size.
Texts that hold numbers count as numbers, and every attribute has a default.
-/

namespace Gridding

structure GridAttributes where
  gridType : Int
  alpha : Float
  beta : Float
  gamma : Float
  centerX : Float
  centerY : Float
  name : String
  originX : Float
  originY : Float
  cellWidth : Float
  cellHeight : Float
  columns : Int
  rows : Int
  boundary : Int
  deriving Repr

namespace GridAttributes

def integerOf : Document → Except NumberError Int
  | .integer n => .ok n
  | .number x => integerPart? x
  | .text s =>
    match readInteger? s with
    | some n => .ok n
    | none => .error .notANumber
  | _ => .error .notANumber

def floatOf : Document → Except NumberError Float
  | .integer n => .ok (floatOfInt n)
  | .number x => .ok x
  | .text s =>
    match readFloat? s with
    | some x => .ok x
    | none => .error .notANumber
  | _ => .error .notANumber

def read (attributes : List (String × Document)) : Except NumberError GridAttributes := do
  let find? (name : String) : Option Document := (attributes.find? fun a => a.1 == name).map (·.2)
  let integer (name : String) (default : Int) : Except NumberError Int :=
    ((find? name).map integerOf).getD (.ok default)
  let float (name : String) : Except NumberError Float := ((find? name).map floatOf).getD (.ok 0.0)
  let gridType ← integer "GDTYP" 2
  let alpha ← float "P_ALP"
  let beta ← float "P_BET"
  let gamma ← float "P_GAM"
  let centerX ← float "XCENT"
  let centerY ← float "YCENT"
  let name := Text.trim (((find? "GDNAM").map Document.display).getD "UNKNOWN")
  let originX ← float "XORIG"
  let originY ← float "YORIG"
  let cellWidth ← float "XCELL"
  let cellHeight ← float "YCELL"
  let columns ← integer "NCOLS" 0
  let rows ← integer "NROWS" 0
  let boundary ← integer "NTHIK" 1
  return ⟨gridType, alpha, beta, gamma, centerX, centerY, name, originX, originY, cellWidth,
    cellHeight, columns, rows, boundary⟩

end GridAttributes

end Gridding
