import Gridding.Document.Basic
/-!
# Writing documents

Every item and every member stands on its own line, two blanks deeper than what holds it; empty
lists and objects stay on one line. All characters outside plain ASCII are escaped, those above
`U+FFFF` as surrogate pairs. Doubles are written with the fewest digits that read back.
-/

namespace Gridding.Document

def unitText (n : Nat) : List Char :=
  let ds := Nat.toDigits 16 n
  '\\' :: 'u' :: List.replicate (4 - ds.length) '0' ++ ds

def escaped (c : Char) : List Char :=
  match c with
  | '"' => ['\\', '"']
  | '\\' => ['\\', '\\']
  | '\n' => ['\\', 'n']
  | '\r' => ['\\', 'r']
  | '\t' => ['\\', 't']
  | '\x08' => ['\\', 'b']
  | '\x0c' => ['\\', 'f']
  | _ =>
    let n := c.toNat
    if 0x20 ≤ n && n < 0x7F then [c]
    else if n < 0x10000 then unitText n
    else unitText (0xD800 + (n - 0x10000) / 0x400) ++ unitText (0xDC00 + (n - 0x10000) % 0x400)

def quotedText (s : String) : String := String.ofList ('"' :: s.toList.flatMap escaped ++ ['"'])

def numberText (x : Float) : String :=
  if x.isNaN then "NaN"
  else if x.isInf then (if x < 0.0 then "-Infinity" else "Infinity")
  else Decimal.shortest x

def lineStart (depth : Nat) : String :=
  "\n" ++ String.ofList (List.replicate (2 * depth) ' ')

mutual

def writeAt (depth : Nat) : Document → String
  | null => "null"
  | bool b => if b then "true" else "false"
  | integer n => toString n
  | number x => numberText x
  | text s => quotedText s
  | list [] => "[]"
  | list (d :: ds) =>
    "[" ++ lineStart (depth + 1) ++ writeAt (depth + 1) d ++ writeItems (depth + 1) ds ++
      lineStart depth ++ "]"
  | object [] => "\x7b\x7d"
  | object ((name, d) :: ms) =>
    "\x7b" ++ lineStart (depth + 1) ++ quotedText name ++ ": " ++ writeAt (depth + 1) d ++
      writeMembers (depth + 1) ms ++ lineStart depth ++ "\x7d"

def writeItems (depth : Nat) : List Document → String
  | [] => ""
  | d :: ds => "," ++ lineStart depth ++ writeAt depth d ++ writeItems depth ds

def writeMembers (depth : Nat) : List (String × Document) → String
  | [] => ""
  | (name, d) :: ms =>
    "," ++ lineStart depth ++ quotedText name ++ ": " ++ writeAt depth d ++ writeMembers depth ms

end

def write (d : Document) : String := writeAt 0 d

end Gridding.Document
