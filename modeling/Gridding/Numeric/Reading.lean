import Gridding.Numeric.Binary
import Gridding.Text.Blank
import Gridding.Text.Digit
/-!
# Numbers read from text

`readInteger?` and `readFloat?` read a whole text as one decimal number. Blanks around it other than
the separators U+001C to U+001F, digits of any script and single underscores between digits are allowed;
doubles may also be written `inf`, `infinity` or `nan` in any case.
-/

namespace Gridding

/-- The double nearest to `digits * 10 ^ exponent`. Exponents that cannot matter are cut off. -/
def floatOfDecimal (negative : Bool) (digits : Nat) (exponent : Int) : Float :=
  let magnitude : Float :=
    if digits = 0 then 0.0
    else
      let size : Int := (Nat.toDigits 10 digits).length + exponent
      if size > 400 then 1.0 / 0.0
      else if size < -400 then 0.0
      else
        Binary.roundRatio (digits * Nat.pow 10 exponent.toNat : Nat) (Nat.pow 10 (-exponent).toNat)
  if negative then -magnitude else magnitude

namespace Reading

/-- Drops the underscores of a text in which each stands between two digits. -/
def withoutUnderscores? (cs : List Char) : Option (List Char) :=
  let rec go : Bool → List Char → Option (List Char)
    | _, [] => some []
    | afterDigit, '_' :: c :: rest =>
      if afterDigit && c.isDigit then go false (c :: rest) else none
    | _, ['_'] => none
    | _, c :: rest => (go c.isDigit rest).map (c :: ·)
  go false cs

/-- The separators of files, groups, records and units. -/
def separators : List Nat := [28, 29, 30, 31]

/-- May the character stand before and after a number? -/
def isMargin (c : Char) : Bool := Text.isBlank c && !separators.contains c.toNat

/-- The text without what may stand around a number and with all digits in the plain script. -/
def plain (s : String) : List Char :=
  (Text.trimBoth isMargin s.toList).map fun c =>
    match Text.digitValue? c with
    | some d => Char.ofNat (48 + d)
    | none => c

def splitSign : List Char → Bool × List Char
  | '-' :: rest => (true, rest)
  | '+' :: rest => (false, rest)
  | cs => (false, cs)

def naturalOfDigits (cs : List Char) : Nat := cs.foldl (fun n c => 10 * n + (c.toNat - 48)) 0

/-- The longest integer text that is read. -/
def maxIntegerDigits : Nat := 4300

def takeDigits (cs : List Char) : List Char × List Char :=
  (cs.takeWhile (·.isDigit), cs.dropWhile (·.isDigit))

/-- An exponent mark, an optional sign and digits; anything else is left over. -/
def exponentOf (cs : List Char) : Option Int :=
  match cs with
  | [] => some 0
  | c :: rest =>
    if c == 'e' || c == 'E' then
      let (negative, ds) := splitSign rest
      let (ds, left) := takeDigits ds
      if ds.isEmpty || !left.isEmpty then none
      else some (if negative then -(naturalOfDigits ds : Int) else naturalOfDigits ds)
    else none

/-- An unsigned decimal text with an optional point and exponent. -/
def decimal? (negative : Bool) (cs : List Char) : Option Float :=
  let (whole, rest) := takeDigits cs
  let (places, rest) := match rest with
    | '.' :: more => takeDigits more
    | _ => ([], rest)
  if whole.isEmpty && places.isEmpty then none
  else (exponentOf rest).map fun e =>
    floatOfDecimal negative (naturalOfDigits (whole ++ places)) (e - places.length)

end Reading

open Reading

def readInteger? (s : String) : Option Int :=
  let (negative, cs) := splitSign (plain s)
  match withoutUnderscores? cs with
  | some ds =>
    if ds.isEmpty || !ds.all (·.isDigit) || ds.length > maxIntegerDigits then none
    else some (if negative then -(naturalOfDigits ds : Int) else naturalOfDigits ds)
  | none => none

def readFloat? (s : String) : Option Float :=
  let (negative, cs) := splitSign (plain s)
  let signed (x : Float) : Option Float := some (if negative then -x else x)
  match (String.ofList cs).toLower with
  | "inf" => signed (1.0 / 0.0)
  | "infinity" => signed (1.0 / 0.0)
  | "nan" => signed (0.0 / 0.0)
  | _ => (withoutUnderscores? cs).bind (decimal? negative)

end Gridding
