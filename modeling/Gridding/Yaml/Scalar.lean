import Gridding.Yaml.Cursor
/-!
# Scalars

A scalar is written plainly, in quotes, or as a block of lines that are all indented. Plain and
quoted scalars may go over several lines, which are then folded.
-/

namespace Gridding.Yaml

/-- A scalar that was read, the place after it, and whether a line ended on the way there. -/
structure Scanned where
  text : List Char
  cursor : Cursor
  endedLine : Bool

def flowIndicators : List Char := [',', '[', ']', '\x7b', '\x7d']

/-- How far a word of a plain scalar goes. -/
def plainLength (inFlow : Bool) : List Char → Nat
  | [] => 0
  | c :: rest =>
    let colonEnds := endsToken rest.head? || (inFlow && (rest.head?.any flowIndicators.contains))
    if endsToken (some c) || (c == ':' && colonEnds) ||
        (inFlow && (c == '?' || flowIndicators.contains c)) then 0
    else plainLength inFlow rest + 1

/-- The white space after a word of a plain scalar as it counts between words; none if the scalar
ends at a separator of documents. -/
def plainSpace (c : Cursor) : List Char × Cursor × Bool :=
  let (spaces, c) := c.span (· == ' ')
  match c.head? with
  | some x =>
    if isBreak x then
      let (others, c) := c.next.breaks (· == ' ')
      if c.startsSeparator then ([], c, true) else (fold x others, c, true)
    else (spaces, c, false)
  | none => (spaces, c, false)

/-- The words of a plain scalar, `space` being what stands before the next one. -/
def plainWords (inFlow : Bool) (indent : Int) :
    Nat → (space : List Char) → Cursor → (endedLine : Bool) → Scanned
  | 0, _, c, ended => ⟨[], c, ended⟩
  | fuel + 1, space, c, ended =>
    let n := plainLength inFlow c.rest
    if c.head? == some '#' || n == 0 then ⟨[], c, ended⟩
    else
      let word := c.rest.take n
      let (next, c, ended) := plainSpace (c.skip n)
      if next.isEmpty || c.head? == some '#' || (!inFlow && c.column < indent) then
        ⟨space ++ word, c, ended⟩
      else
        let more := plainWords inFlow indent fuel next c ended
        { more with text := space ++ word ++ more.text }

def plain (inFlow : Bool) (indent : Int) (c : Cursor) : Scanned :=
  plainWords inFlow indent (c.rest.length + 1) [] c false

def simpleEscapes : List (Char × Char) :=
  [('0', '\x00'), ('a', '\x07'), ('b', '\x08'), ('t', '\t'), ('\t', '\t'), ('n', '\n'),
   ('v', '\x0b'), ('f', '\x0c'), ('r', '\r'), ('e', '\x1b'), (' ', ' '), ('"', '"'),
   ('\\', '\\'), ('/', '/'), ('N', '\x85'), ('_', '\xa0'), ('L', '\u2028'), ('P', '\u2029')]

/-- The number of digits of an escape by number. -/
def escapeLength? : Char → Option Nat
  | 'x' => some 2
  | 'u' => some 4
  | 'U' => some 8
  | _ => none

def hexDigit? (c : Char) : Option Nat :=
  if c.isDigit then some (c.toNat - 48)
  else if 'a' ≤ c ∧ c ≤ 'f' then some (c.toNat - 87)
  else if 'A' ≤ c ∧ c ≤ 'F' then some (c.toNat - 55)
  else none

def hexNumber? (cs : List Char) : Option Nat :=
  cs.foldlM (fun n c => (hexDigit? c).map (n * 16 + ·)) 0

/-- The character of a number; half a surrogate pair is a replacement character. -/
def character (n : Nat) : Except Problem Char :=
  if n > 0x10FFFF then .error .number
  else .ok (if 0xD800 ≤ n ∧ n ≤ 0xDFFF then '\uFFFD' else Char.ofNat n)

/-- The line breaks in a quoted scalar after the first one. -/
def quotedBreaks (c : Cursor) : Except Problem (List Char × Cursor) :=
  let (others, c) := c.breaks fun x => x == ' ' || x == '\t'
  if c.startsSeparator then .error .token else .ok (others, c)

/-- What an escape stands for, given the place after its backslash. -/
def escape (c : Cursor) : Except Problem (List Char × Cursor) :=
  match c.head? with
  | none => .error .token
  | some x =>
    match simpleEscapes.lookup x, escapeLength? x with
    | some y, _ => .ok ([y], c.next)
    | none, some n =>
      let digits := c.next.rest.take n
      match hexNumber? digits with
      | some code =>
        if digits.length = n then (character code).map fun y => ([y], c.next.skip n)
        else .error .token
      | none => .error .token
    | none, none => if isBreak x then quotedBreaks c.next else .error .token

/-- White space in a quoted scalar. -/
def quotedSpace (c : Cursor) : Except Problem (List Char × Cursor) :=
  let (spaces, c) := c.span fun x => x == ' ' || x == '\t'
  match c.head? with
  | none => .error .token
  | some x =>
    if isBreak x then (quotedBreaks c.next).map fun (others, c) => (fold x others, c)
    else .ok (spaces, c)

/-- A quoted scalar after its opening quote. -/
def quotedRest (quote : Char) : Nat → Cursor → Except Problem (List Char × Cursor)
  | 0, _ => .error .token
  | fuel + 1, c => do
    let go (read : List Char × Cursor) : Except Problem (List Char × Cursor) :=
      (quotedRest quote fuel read.2).map fun (more, c) => (read.1 ++ more, c)
    match c.head? with
    | none => .error .token
    | some x =>
      if x == quote then
        if quote == '\'' && c.ahead 1 == some '\'' then go (['\''], c.skip 2)
        else return ([], c.next)
      else if x == '\\' && quote == '"' then go (← escape c.next)
      else if endsToken (some x) then go (← quotedSpace c)
      else go ([x], c.next)

def quoted (c : Cursor) : Except Problem (List Char × Cursor) :=
  match c.head? with
  | some quote => quotedRest quote (c.rest.length + 1) c.next
  | none => .error .token

/-- How the line breaks at the end of a block are treated. -/
inductive Chomping where
  | strip
  | clip
  | keep
  deriving DecidableEq, Repr

def chomping? : Option Char → Option Chomping
  | some '+' => some .keep
  | some '-' => some .strip
  | _ => none

/-- The digit that gives the indentation of a block, which is not zero. -/
def blockIndent? (c : Cursor) : Except Problem (Option Nat × Cursor) :=
  match c.head? with
  | some x =>
    if x == '0' then .error .token
    else if x.isDigit then .ok (some (x.toNat - 48), c.next)
    else .ok (none, c)
  | none => .ok (none, c)

/-- Chomping and indentation of a block, in either order. -/
def blockHeader (c : Cursor) : Except Problem (Chomping × Option Nat × Cursor) := do
  let (chomping, indent, c) ← match chomping? c.head? with
    | some chomping => do
      let (indent, c) ← blockIndent? c.next
      pure (chomping, indent, c)
    | none => do
      let (indent, c) ← blockIndent? c
      match indent, chomping? c.head? with
      | some _, some chomping => pure (chomping, indent, c.next)
      | _, _ => pure (Chomping.clip, indent, c)
  if !endsWord c.head? then .error .token
  let c := c.skipSpaces.skipComment
  if !endsLine c.head? then .error .token
  return (chomping, indent, c.next)

/-- The line breaks before the first line of a block, and the greatest column reached on the way. -/
def leadingLines (c : Cursor) : List Char × Nat × Cursor :=
  let (taken, after) := c.span fun x => x == ' ' || isBreak x
  let (_, widest) := taken.foldl (fun (column, widest) x =>
    if isBreak x then (0, widest) else (column + 1, max widest (column + 1))) (c.column, 0)
  ((taken.filter isBreak).map breakText, widest, after)

/-- Skips spaces up to a column. -/
def skipIndent (indent : Nat) (c : Cursor) : Cursor :=
  c.skip (min (c.run (· == ' ')) (indent - c.column))

/-- The empty lines in a block. -/
def emptyLines (indent : Nat) : Nat → Cursor → List Char × Cursor
  | 0, c => ([], c)
  | fuel + 1, c =>
    let c := skipIndent indent c
    match c.head? with
    | some x =>
      if isBreak x then
        let (more, c) := emptyLines indent fuel c.next
        (breakText x :: more, c)
      else ([], c)
    | none => ([], c)

def isIndented (c : Cursor) : Bool := c.head? == some ' ' || c.head? == some '\t'

/-- The lines of a block, `before` being the line breaks in front of the first one. -/
def blockLines (folded : Bool) (chomping : Chomping) (indent : Nat) :
    Nat → (before : List Char) → Cursor → List Char × Cursor
  | 0, _, c => ([], c)
  | fuel + 1, before, c =>
    if c.column != indent || c.head?.isNone then
      (if chomping = .keep then before else [], c)
    else
      let flush := !isIndented c
      let (line, c) := c.span fun x => !isBreak x
      let ending := (c.head?.map breakText).toList
      let (empty, c) := emptyLines indent (c.rest.length + 1) c.next
      if c.column == indent && c.head?.isSome then
        let joint :=
          if folded && ending == ['\n'] && flush && !isIndented c then
            if empty.isEmpty then [' '] else []
          else ending
        let (more, c) := blockLines folded chomping indent fuel empty c
        (before ++ line ++ joint ++ more, c)
      else
        let tail := match chomping with
          | .strip => []
          | .clip => ending
          | .keep => ending ++ empty
        (before ++ line ++ tail, c)

/-- A block after the sign that starts it; `parent` is the indentation around it. -/
def block (folded : Bool) (parent : Int) (c : Cursor) : Except Problem (List Char × Cursor) := do
  let (chomping, given, c) ← blockHeader c
  let least := max 1 (parent + 1).toNat
  match given with
  | some n =>
    let indent := least + n - 1
    let (before, c) := emptyLines indent (c.rest.length + 1) c
    return blockLines folded chomping indent (c.rest.length + 1) before c
  | none =>
    let (before, widest, c) := leadingLines c
    let indent := max least widest
    return blockLines folded chomping indent (c.rest.length + 1) before c

end Gridding.Yaml
