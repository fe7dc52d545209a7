import Gridding.Document.Basic
import Gridding.Entries
import Gridding.Numeric.Reading
/-!
# Reading documents

The grammar is that of JSON with the words `NaN`, `Infinity` and `-Infinity` for doubles that are
not finite. A number without point and exponent is an integer. Of several members with one name
the last value counts. Half a surrogate pair is read as the replacement character.
-/

namespace Gridding.Document

def isSpace (c : Char) : Bool := c == ' ' || c == '\t' || c == '\n' || c == '\r'

def skipSpace (cs : List Char) : List Char := cs.dropWhile isSpace

def hexValue? (c : Char) : Option Nat :=
  if c.isDigit then some (c.toNat - 48)
  else if 'a' ≤ c && c ≤ 'f' then some (c.toNat - 87)
  else if 'A' ≤ c && c ≤ 'F' then some (c.toNat - 55)
  else none

def unit? : List Char → Option (Nat × List Char)
  | a :: b :: c :: d :: rest => do
    let a ← hexValue? a
    let b ← hexValue? b
    let c ← hexValue? c
    let d ← hexValue? d
    return (((a * 16 + b) * 16 + c) * 16 + d, rest)
  | _ => none

/-- The code point of an escaped unit, which may be the first of a surrogate pair. -/
def codePoint? (cs : List Char) : Option (Nat × List Char) := do
  let (high, rest) ← unit? cs
  if high < 0xD800 || 0xE000 ≤ high then return (high, rest)
  else if high < 0xDC00 then
    match rest with
    | '\\' :: 'u' :: more =>
      match unit? more with
      | some (low, rest') =>
        if 0xDC00 ≤ low && low < 0xE000 then
          return (0x10000 + (high - 0xD800) * 0x400 + (low - 0xDC00), rest')
        else return (0xFFFD, rest)
      | none => none
    | _ => return (0xFFFD, rest)
  else return (0xFFFD, rest)

/-- The rest of a text after its opening quote. The fuel bounds its length. -/
def textRest : Nat → List Char → List Char → Option (String × List Char)
  | 0, _, _ => none
  | fuel + 1, done, cs =>
    match cs with
    | [] => none
    | '"' :: rest => some (String.ofList done.reverse, rest)
    | '\\' :: 'u' :: rest =>
      match codePoint? rest with
      | some (n, rest) => textRest fuel (Char.ofNat n :: done) rest
      | none => none
    | '\\' :: c :: rest =>
      let plain? : Option Char := match c with
        | '"' => some '"'
        | '\\' => some '\\'
        | '/' => some '/'
        | 'b' => some '\x08'
        | 'f' => some '\x0c'
        | 'n' => some '\n'
        | 'r' => some '\r'
        | 't' => some '\t'
        | _ => none
      match plain? with
      | some p => textRest fuel (p :: done) rest
      | none => none
    | c :: rest => if c.toNat < 0x20 then none else textRest fuel (c :: done) rest

/-- The digits before a point. No more than one is read after a leading zero. -/
def wholeDigits (cs : List Char) : List Char × List Char :=
  match Reading.takeDigits cs with
  | ('0' :: more, rest) => (['0'], more ++ rest)
  | (digits, rest) => (digits, rest)

/-- The digits after a point, if there are any. -/
def places (cs : List Char) : List Char × List Char :=
  match cs with
  | '.' :: more =>
    let (ds, left) := Reading.takeDigits more
    if ds.isEmpty then ([], cs) else (ds, left)
  | _ => ([], cs)

/-- The exponent, if there is one. -/
def exponent (cs : List Char) : Option Int × List Char :=
  match cs with
  | [] => (none, [])
  | e :: more =>
    if e == 'e' || e == 'E' then
      let (negative, ds) := Reading.splitSign more
      let (ds, left) := Reading.takeDigits ds
      let n : Int := Reading.naturalOfDigits ds
      if ds.isEmpty then (none, cs) else (some (if negative then -n else n), left)
    else (none, cs)

/-- The number of some digits before and after a point. Without places and exponent it is an
integer. -/
def numberOf? (negative : Bool) (whole places : List Char) (exponent : Option Int) :
    Option Document :=
  let digits := Reading.naturalOfDigits (whole ++ places)
  if places.isEmpty && exponent.isNone then
    if whole.length > Reading.maxIntegerDigits then none
    else some (.integer (if negative then -(digits : Int) else digits))
  else some (.number (floatOfDecimal negative digits (exponent.getD 0 - places.length)))

/-- A number after its sign. -/
def number? (negative : Bool) (cs : List Char) : Option (Document × List Char) :=
  let (whole, rest) := wholeDigits cs
  let (places, rest) := places rest
  let (exponent, rest) := exponent rest
  if whole.isEmpty then none
  else (numberOf? negative whole places exponent).map fun d => (d, rest)

def literals : List (List Char × Document) :=
  [("null".toList, .null), ("true".toList, .bool true), ("false".toList, .bool false),
   ("NaN".toList, .number (0.0 / 0.0)), ("Infinity".toList, .number (1.0 / 0.0)),
   ("-Infinity".toList, .number (-1.0 / 0.0))]

def literal? (cs : List Char) : Option (Document × List Char) :=
  (literals.find? fun l => l.1.isPrefixOf cs).map fun l => (l.2, cs.drop l.1.length)

/-- What stands between an opening bracket before the text and its closing one. -/
def bracketed {α : Type} (close : Char) (read : List Char → Option (List α × List Char))
    (cs : List Char) : Option (List α × List Char) :=
  match skipSpace cs with
  | [] => none
  | c :: rest => if c == close then some ([], rest) else read (c :: rest)

mutual

/-- One value at the start of the text. The fuel bounds the nesting and the length of lists. -/
def value : Nat → List Char → Option (Document × List Char)
  | 0, _ => none
  | fuel + 1, cs =>
    match literal? cs with
    | some found => some found
    | none =>
      match cs with
      | '"' :: rest => (textRest (rest.length + 1) [] rest).map fun (s, rest) => (.text s, rest)
      | '[' :: rest => (bracketed ']' (itemsAt fuel) rest).map fun (ds, rest) => (.list ds, rest)
      | '{' :: rest =>
        (bracketed '}' (membersAt fuel []) rest).map fun (ms, rest) => (.object ms, rest)
      | '-' :: rest => number? true rest
      | _ => number? false cs

/-- The items of a list up to its closing bracket. -/
def itemsAt : Nat → List Char → Option (List Document × List Char)
  | 0, _ => none
  | fuel + 1, cs => do
    let (d, rest) ← value fuel (skipSpace cs)
    match skipSpace rest with
    | ']' :: rest => return ([d], rest)
    | ',' :: rest =>
      let (ds, rest) ← itemsAt fuel rest
      return (d :: ds, rest)
    | _ => none

/-- The members of an object up to its closing brace. -/
def membersAt : Nat → List (String × Document) → List Char →
    Option (List (String × Document) × List Char)
  | 0, _, _ => none
  | fuel + 1, done, cs =>
    match skipSpace cs with
    | '"' :: rest => do
      let (name, rest) ← textRest (rest.length + 1) [] rest
      match skipSpace rest with
      | ':' :: rest =>
        let (d, rest) ← value fuel (skipSpace rest)
        let done := Entries.put name d done
        match skipSpace rest with
        | '}' :: rest => return (done, rest)
        | ',' :: rest => membersAt fuel done rest
        | _ => none
      | _ => none
    | _ => none

end

/-- The document a text holds, blanks around it apart. -/
def read? (s : String) : Option Document :=
  let cs := s.toList
  match value (cs.length + 1) (skipSpace cs) with
  | some (d, rest) => if (skipSpace rest).isEmpty then some d else none
  | none => none

end Gridding.Document
