import Gridding.Numeric.Reading
import Gridding.Yaml.Cursor
/-!
# What plain scalars mean

A plain scalar is null, a truth value, an integer, a number, a date or a text by the way it is
written. An exponent needs a sign and a number a point. Integers may be written in base two, eight
or sixteen, and numbers of either kind in parts of sixty.
-/

namespace Gridding.Yaml

inductive Kind where
  | null
  | flag
  | integer
  | number
  | time
  | text
  /-- The key under which a mapping takes over others. -/
  | merge
  /-- A scalar that stands for the whole of a mapping. -/
  | whole
  deriving DecidableEq, Repr

namespace Plain

def flagWords : List (String × Bool) :=
  [("yes", true), ("no", false), ("true", true), ("false", false), ("on", true), ("off", false)]

/-- The word in small letters, with a capital in front, or in capitals. -/
def spellings (word : String) : List String := [word, word.capitalize, word.toUpper]

def isFlag (s : String) : Bool := flagWords.any fun w => (spellings w.1).contains s

def nullWords : List String := ["", "~", "null", "Null", "NULL"]

def isDigitOr (c : Char) : Bool := c.isDigit || c == '_'

def dropSign : List Char → List Char
  | '-' :: rest => rest
  | '+' :: rest => rest
  | cs => cs

/-- Nothing, or a signed exponent. -/
def isExponent : List Char → Bool
  | [] => true
  | e :: sign :: ds =>
    (e == 'e' || e == 'E') && (sign == '-' || sign == '+') && !ds.isEmpty && ds.all Char.isDigit
  | _ => false

def startsWithDigit (cs : List Char) : Bool := cs.head?.any Char.isDigit

/-- Digits, a point, places and an exponent. -/
def isDecimal (cs : List Char) : Bool :=
  startsWithDigit cs &&
    match cs.dropWhile isDigitOr with
    | '.' :: rest => isExponent (rest.dropWhile isDigitOr)
    | _ => false

/-- A point with places and an exponent. -/
def isFraction : List Char → Bool
  | '.' :: rest => startsWithDigit rest && isExponent (rest.dropWhile isDigitOr)
  | _ => false

/-- Drops parts of sixty, of one or two digits; counts them. -/
def dropSixtieths : List Char → Nat × List Char
  | ':' :: a :: b :: rest =>
    if !a.isDigit then (0, ':' :: a :: b :: rest)
    else if b.isDigit then
      if a ≤ '5' then
        let (n, rest) := dropSixtieths rest
        (n + 1, rest)
      else (1, b :: rest)
    else
      let (n, rest) := dropSixtieths (b :: rest)
      (n + 1, rest)
  | [':', a] => if a.isDigit then (1, []) else (0, [':', a])
  | cs => (0, cs)
termination_by cs => cs.length

def isInfinite (cs : List Char) : Bool :=
  [".inf", ".Inf", ".INF"].contains (String.ofList (dropSign cs))

def isNotANumber (cs : List Char) : Bool := [".nan", ".NaN", ".NAN"].contains (String.ofList cs)

/-- Digits, parts of sixty, a point and places. -/
def isSixtiethsNumber (cs : List Char) : Bool :=
  startsWithDigit cs &&
    match dropSixtieths (cs.dropWhile isDigitOr) with
    | (_ + 1, '.' :: rest) => rest.all isDigitOr
    | _ => false

def isNumber (cs : List Char) : Bool :=
  isDecimal (dropSign cs) || isFraction cs || isSixtiethsNumber (dropSign cs) || isInfinite cs ||
    isNotANumber cs

def isHexDigitOr (c : Char) : Bool :=
  isDigitOr c || ('a' ≤ c ∧ c ≤ 'f') || ('A' ≤ c ∧ c ≤ 'F')

def isUnsignedInteger : List Char → Bool
  | ['0'] => true
  | '0' :: 'b' :: ds => !ds.isEmpty && ds.all fun c => c == '0' || c == '1' || c == '_'
  | '0' :: 'x' :: ds => !ds.isEmpty && ds.all isHexDigitOr
  | '0' :: ds => ds.all fun c => ('0' ≤ c ∧ c ≤ '7') || c == '_'
  | c :: ds =>
    c.isDigit &&
      match dropSixtieths (ds.dropWhile isDigitOr) with
      | (_, []) => true
      | _ => false
  | [] => false

def isInteger (cs : List Char) : Bool := isUnsignedInteger (dropSign cs)

/-- Up to `most` digits, at least `least` of them. -/
def digits? (least most : Nat) (cs : List Char) : Option (Nat × List Char) :=
  let ds := (cs.take most).takeWhile Char.isDigit
  if ds.length < least then none else some (Reading.naturalOfDigits ds, cs.drop ds.length)

def sign? (c : Char) : List Char → Option (List Char)
  | x :: rest => if x == c then some rest else none
  | [] => none

/-- A date, with a time of day and its distance from the standard time in minutes, if given. -/
structure Time where
  year : Nat
  month : Nat
  day : Nat
  clock : Option (Nat × Nat × Nat × Nat)
  offset : Option Int
  deriving Repr

def fullDate? (cs : List Char) : Option Time := do
  let (year, cs) ← digits? 4 4 cs
  let (month, cs) ← sign? '-' cs >>= digits? 2 2
  let (day, cs) ← sign? '-' cs >>= digits? 2 2
  if cs.isEmpty then some ⟨year, month, day, none, none⟩ else none

def isGap (c : Char) : Bool := c == ' ' || c == '\t'

/-- What follows the date before a time of day. -/
def afterDate? : List Char → Option (List Char)
  | 'T' :: rest => some rest
  | 't' :: rest => some rest
  | c :: rest => if isGap c then some (rest.dropWhile isGap) else none
  | [] => none

/-- The microseconds after a point. -/
def fraction : List Char → Nat × List Char
  | '.' :: rest =>
    let ds := rest.takeWhile Char.isDigit
    (Reading.naturalOfDigits ((ds ++ List.replicate 6 '0').take 6), rest.drop ds.length)
  | cs => (0, cs)

/-- The distance from the standard time at the end of a text. -/
def offset? (cs : List Char) : Option (Option Int) :=
  match cs.dropWhile isGap with
  | [] => if cs.isEmpty then some none else none
  | ['Z'] => some (some 0)
  | sign :: rest =>
    if sign != '-' && sign != '+' then none
    else do
      let (hours, rest) ← digits? 1 2 rest
      let minutes ← if rest.isEmpty then some 0
        else do
          let (minutes, rest) ← sign? ':' rest >>= digits? 2 2
          if rest.isEmpty then some minutes else none
      let total : Int := hours * 60 + minutes
      some (some (if sign == '-' then -total else total))

def dateTime? (cs : List Char) : Option Time := do
  let (year, cs) ← digits? 4 4 cs
  let (month, cs) ← sign? '-' cs >>= digits? 1 2
  let (day, cs) ← sign? '-' cs >>= digits? 1 2
  let (hour, cs) ← afterDate? cs >>= digits? 1 2
  let (minute, cs) ← sign? ':' cs >>= digits? 2 2
  let (second, cs) ← sign? ':' cs >>= digits? 2 2
  let (micros, cs) := fraction cs
  let offset ← offset? cs
  some ⟨year, month, day, some (hour, minute, second, micros), offset⟩

def time? (cs : List Char) : Option Time := (fullDate? cs).or (dateTime? cs)

/-- The kind of a scalar by the way it is written. -/
def kind (s : String) : Kind :=
  let cs := s.toList
  if isFlag s then .flag
  else if isNumber cs then .number
  else if isInteger cs then .integer
  else if s == "<<" then .merge
  else if nullWords.contains s then .null
  else if (time? cs).isSome then .time
  else if s == "=" then .whole
  else .text

def numberInBase (base : Nat) (cs : List Char) : Option Nat :=
  if cs.isEmpty then none
  else cs.foldlM (fun n c =>
    let d := if c.isDigit then c.toNat - 48 else if 'a' ≤ c then c.toNat - 87 else c.toNat - 55
    if d < base then some (n * base + d) else none) 0

def splitColons (cs : List Char) : List String := (String.ofList cs).splitOn ":"

/-- The integer of a text without a sign. -/
def unsigned? : List Char → Option Int
  | ['0'] => some 0
  | '0' :: 'b' :: ds => (numberInBase 2 ds).map fun n => (n : Int)
  | '0' :: 'x' :: ds => (numberInBase 16 ds).map fun n => (n : Int)
  | '0' :: ds => (numberInBase 8 ('0' :: ds)).map fun n => (n : Int)
  | cs =>
    ((splitColons cs).mapM readInteger?).map fun parts => parts.foldl (fun n p => n * 60 + p) 0

def withoutUnderscores (cs : List Char) : List Char := cs.filter (· != '_')

def integer? (s : String) : Option Int :=
  let cs := withoutUnderscores s.toList
  let n? := unsigned? (dropSign cs)
  if cs.head? == some '-' then n?.map (- ·) else n?

/-- The sum of the parts of sixty, the last one first. -/
def sumSixtieths : Float → List Float → Float
  | _, [] => 0.0
  | base, p :: ps => ps.foldl (fun (acc : Float × Float) p => (acc.1 + p * acc.2, acc.2 * 60.0))
      (p * base, base * 60.0) |>.1

def number? (s : String) : Option Float :=
  let cs := (withoutUnderscores s.toList).map Char.toLower
  let body := dropSign cs
  let x? := match String.ofList body with
    | ".inf" => some (1.0 / 0.0)
    | ".nan" => some (0.0 / 0.0)
    | text =>
      if body.contains ':' then
        ((text.splitOn ":").mapM readFloat?).map fun ps => sumSixtieths 1.0 ps.reverse
      else readFloat? text
  if cs.head? == some '-' then x?.map fun x => -1.0 * x else x?

def isLeapYear (y : Nat) : Bool := y % 4 == 0 && (y % 100 != 0 || y % 400 == 0)

def daysIn (year month : Nat) : Nat :=
  if month == 2 then if isLeapYear year then 29 else 28
  else if [4, 6, 9, 11].contains month then 30
  else 31

def Time.isValid (t : Time) : Bool :=
  1 ≤ t.year && 1 ≤ t.month && t.month ≤ 12 && 1 ≤ t.day && t.day ≤ daysIn t.year t.month &&
    (t.clock.all fun (h, m, s, _) => h < 24 && m < 60 && s < 60) &&
    t.offset.all fun m => -1440 < m && m < 1440

def padded (width n : Nat) : String :=
  let s := toString n
  String.ofList (List.replicate (width - s.length) '0') ++ s

def Time.text (t : Time) : String :=
  let date := padded 4 t.year ++ "-" ++ padded 2 t.month ++ "-" ++ padded 2 t.day
  let clock := match t.clock with
    | some (h, m, s, micros) =>
      " " ++ padded 2 h ++ ":" ++ padded 2 m ++ ":" ++ padded 2 s ++
        if micros = 0 then "" else "." ++ padded 6 micros
    | none => ""
  let offset := match t.offset with
    | some m =>
      (if m < 0 then "-" else "+") ++ padded 2 (m.natAbs / 60) ++ ":" ++ padded 2 (m.natAbs % 60)
    | none => ""
  date ++ clock ++ offset

end Plain

end Gridding.Yaml
