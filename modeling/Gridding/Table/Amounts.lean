import Gridding.Numeric.Reading
import Gridding.Table.Column
/-!
# Columns read as amounts

What is missing or no number counts as zero. A text is read with up to seventeen digits, which are
collected in a double and scaled by one power of ten.
-/

namespace Gridding.Column

private def isPlainBlank (c : Char) : Bool := c == ' ' || ('\t' ≤ c && c ≤ '\r')

private def maxDigits : Nat := 17

private def powerOfTen (n : Nat) : Float := floatOfDecimal false 1 n

private def scaled (x : Float) (exponent : Int) : Float :=
  if exponent > 308 then
    if x == 0.0 then 0.0 else if x < 0.0 then -1.0 / 0.0 else 1.0 / 0.0
  else if exponent > 0 then x * powerOfTen exponent.toNat
  else if exponent < -308 then x / powerOfTen (-308 - exponent).toNat / powerOfTen 308
  else x / powerOfTen (-exponent).toNat

private def collect (ds : List Char) (start : Float) : Float :=
  ds.foldl (fun x c => x * 10.0 + floatOfInt (c.toNat - 48 : Nat)) start

/-- A decimal number between blanks; digits after the seventeenth only count as places. -/
def decimalAmount? (s : String) : Option Float :=
  let (negative, cs) := Reading.splitSign (s.toList.dropWhile isPlainBlank)
  let (whole, rest) := Reading.takeDigits cs
  let kept := whole.take maxDigits
  let (places, rest) := match rest with
    | '.' :: more =>
      let (ds, left) := Reading.takeDigits more
      (ds.take (maxDigits - kept.length), left)
    | _ => ([], rest)
  if kept.isEmpty && places.isEmpty then none
  else
    let x := collect places (collect kept 0.0)
    let x := if negative then -x else x
    let shift : Int := (whole.length - kept.length : Nat) - (places.length : Int)
    let (exponent, rest) : Int × List Char := match rest with
      | e :: more =>
        if e == 'e' || e == 'E' then
          let (down, ds) := Reading.splitSign more
          let (ds, left) := Reading.takeDigits ds
          let ds' := ds.take maxDigits
          if ds.isEmpty then (0, rest)
          else (if down then -(Reading.naturalOfDigits ds' : Int) else Reading.naturalOfDigits ds',
            ds.drop maxDigits ++ left)
        else (0, rest)
      | [] => (0, rest)
    let value := scaled x (shift + exponent)
    if (rest.dropWhile isPlainBlank).isEmpty && value.isFinite then some value else none

private def infinity? (s : String) : Option Float :=
  match s.toLower with
  | "inf" => some (1.0 / 0.0)
  | "+inf" => some (1.0 / 0.0)
  | "-inf" => some (-1.0 / 0.0)
  | "infinity" => some (1.0 / 0.0)
  | "+infinity" => some (1.0 / 0.0)
  | "-infinity" => some (-1.0 / 0.0)
  | _ => none

private def textAmount? (s : String) : Option Float :=
  (infinity? s).orElse fun _ => decimalAmount? s

/-- The amount a value stands for, zero if none. -/
def amount (storage : Storage) (d : Document) : Float :=
  let x := match d with
    | .text s => (textAmount? s).getD 0.0
    | d => toFloat d
  let x := if storage = .singles then x.toFloat32.toFloat else x
  if x.isNaN then 0.0 else x

end Gridding.Column

namespace Gridding

/-- Numbers that stored values stand for. -/
class Amount (α : Type) where
  amount : Storage → Document → α

instance : Amount Float := ⟨Column.amount⟩

def Column.amounts {α : Type} [Amount α] (c : Column) : List α :=
  c.values.map (Amount.amount c.storage)

end Gridding
