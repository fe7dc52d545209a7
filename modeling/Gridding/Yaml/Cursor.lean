/-!
# Places in a YAML text

A cursor is the rest of a text and how far it is from the start, in characters, lines and columns.
Besides the line feed there are three other line breaks.
-/

namespace Gridding.Yaml

structure Cursor where
  rest : List Char
  index : Nat
  line : Nat
  column : Nat
  deriving Repr

def isBreak (c : Char) : Bool := c == '\n' || c == '\x85' || c == '\u2028' || c == '\u2029'

/-- Is this the end of the text or of a line? -/
def endsLine : Option Char → Bool
  | none => true
  | some c => isBreak c

def endsWord : Option Char → Bool
  | some ' ' => true
  | c => endsLine c

/-- Is this the end of the text or of a line, or white space? -/
def endsToken : Option Char → Bool
  | some '\t' => true
  | c => endsWord c

/-- The text of a line break. Most line breaks count as line feeds. -/
def breakText (c : Char) : Char := if c == '\x85' then '\n' else c

def byteOrderMark : Char := '\uFEFF'

namespace Cursor

def start (text : List Char) : Cursor := ⟨text, 0, 0, 0⟩

def head? (c : Cursor) : Option Char := c.rest.head?

/-- The character a number of places ahead. -/
def ahead (c : Cursor) (n : Nat) : Option Char := c.rest[n]?

def next (c : Cursor) : Cursor :=
  match c.rest with
  | [] => c
  | x :: rest =>
    if isBreak x then ⟨rest, c.index + 1, c.line + 1, 0⟩
    else ⟨rest, c.index + 1, c.line, if x == byteOrderMark then c.column else c.column + 1⟩

def skip (c : Cursor) : Nat → Cursor
  | 0 => c
  | n + 1 => c.next.skip n

/-- How many characters from here on have a property. -/
def run (p : Char → Bool) (c : Cursor) : Nat := (c.rest.takeWhile p).length

/-- The characters from here on that have a property, and the place after them. -/
def span (p : Char → Bool) (c : Cursor) : List Char × Cursor :=
  let taken := c.rest.takeWhile p
  (taken, c.skip taken.length)

def skipWhile (p : Char → Bool) (c : Cursor) : Cursor := (c.span p).2

def skipSpaces (c : Cursor) : Cursor := c.skipWhile (· == ' ')

def skipLine (c : Cursor) : Cursor := c.skipWhile fun x => !isBreak x

/-- Skips a comment, if one starts here. -/
def skipComment (c : Cursor) : Cursor := if c.head? == some '#' then c.skipLine else c

/-- Does a line of three dashes or three dots start here? -/
def atMarker (mark : Char) (c : Cursor) : Bool :=
  c.rest.take 3 == [mark, mark, mark] && endsToken (c.ahead 3)

def atSeparator (c : Cursor) : Bool := c.atMarker '-' || c.atMarker '.'

/-- Skips blank characters and line breaks; gives the texts of the line breaks. -/
def breaks (isBlank : Char → Bool) (c : Cursor) : List Char × Cursor :=
  let (taken, c) := c.span fun x => isBlank x || isBreak x
  ((taken.filter isBreak).map breakText, c)

/-- Is this the start of a line with a separator? -/
def startsSeparator (c : Cursor) : Bool := c.column == 0 && c.atSeparator

end Cursor

/-- What stands for the line breaks between two lines of one text, the first of them being `first`.
A single line feed becomes a space. -/
def fold (first : Char) (others : List Char) : List Char :=
  if breakText first != '\n' then breakText first :: others
  else if others.isEmpty then [' ']
  else others

/-- What is wrong with a text. -/
inductive Problem where
  | unprintable
  /-- It does not fall into tokens. -/
  | token
  /-- The tokens do not make up a document. -/
  | grammar
  /-- Names of nodes are repeated or unknown, or there are several documents. -/
  | reference
  /-- A node cannot have the value that its tag asks for. -/
  | value
  | number
  | flag
  deriving DecidableEq, Repr

end Gridding.Yaml
