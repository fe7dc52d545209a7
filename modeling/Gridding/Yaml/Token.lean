import Gridding.Yaml.Scalar
/-!
# Tokens of YAML

The tokens of a text tell of its structure: where blocks start and end by indentation, where keys
and values are, and which scalars, names and tags there are. A key is known as such only when its
colon comes, which has to be on the same line; until then its token is a candidate.

`tokens` gives the tokens up to the first that cannot be told, and whether that is all of them.
-/

namespace Gridding.Yaml

inductive Token where
  | streamEnd
  | directive (name : String) (arguments : List String)
  | documentStart
  | documentEnd
  | blockSequenceStart
  | blockMappingStart
  | blockEnd
  | flowSequenceStart
  | flowSequenceEnd
  | flowMappingStart
  | flowMappingEnd
  | blockEntry
  | flowEntry
  | key
  | value
  | alias (name : String)
  | anchor (name : String)
  | tag (handle : Option String) (suffix : String)
  | scalar (text : String) (isPlain : Bool)
  deriving DecidableEq, Repr

/-- A token that is a key if a colon follows in time. -/
structure Candidate where
  /-- The number of tokens before it. -/
  place : Nat
  /-- Nothing but a key may stand here. -/
  isRequired : Bool
  start : Cursor

structure Reader where
  cursor : Cursor
  tokens : Array Token
  /-- How many flow collections are open. -/
  flow : Int
  indent : Int
  outer : List Int
  /-- May a key in a block start here? -/
  allowsKey : Bool
  /-- At most one for each number of open flow collections. -/
  candidates : List (Int × Candidate)
  isDone : Bool

namespace Reader

def start (text : List Char) : Reader := ⟨.start text, #[], 0, -1, [], true, [], false⟩

def inFlow (r : Reader) : Bool := r.flow != 0

def column (r : Reader) : Int := r.cursor.column

def push (r : Reader) (t : Token) : Reader := { r with tokens := r.tokens.push t }

/-- The longest distance of a colon from the start of its key. -/
def longestKey : Nat := 1024

def isStale (r : Reader) (c : Candidate) : Bool :=
  c.start.line != r.cursor.line || r.cursor.index - c.start.index > longestKey

/-- Gives up the candidates that come too early for a colon here. -/
def dropStale (r : Reader) : Except Problem Reader :=
  if r.candidates.any fun c => r.isStale c.2 && c.2.isRequired then .error .token
  else .ok { r with candidates := r.candidates.filter fun c => !r.isStale c.2 }

/-- Gives up the candidate among the open flow collections. -/
def dropCandidate (r : Reader) : Except Problem Reader :=
  match r.candidates.lookup r.flow with
  | some c =>
    if c.isRequired then .error .token
    else .ok { r with candidates := r.candidates.filter fun c => c.1 != r.flow }
  | none => .ok r

/-- Takes note that the next token may be a key. -/
def addCandidate (r : Reader) : Except Problem Reader :=
  if r.allowsKey then do
    let isRequired := !r.inFlow && r.indent == r.column
    let r ← r.dropCandidate
    return { r with candidates := (r.flow, ⟨r.tokens.size, isRequired, r.cursor⟩) :: r.candidates }
  else .ok r

/-- Ends the blocks that are indented more than a column. -/
def unwind (r : Reader) (column : Int) : Reader :=
  if r.inFlow then r
  else
    let ended := (r.indent :: r.outer).takeWhile fun i => i > column
    let left := (r.indent :: r.outer).dropWhile fun i => i > column
    { r with
      tokens := ended.foldl (fun ts _ => ts.push .blockEnd) r.tokens
      indent := left.head?.getD (-1)
      outer := left.tail }

/-- Starts a block at a column, if it is indented more than what is around it; its token comes at
the given place. -/
def startBlock (r : Reader) (column : Int) (place : Nat) (t : Token) : Reader :=
  if r.indent < column then
    { r with
      outer := r.indent :: r.outer
      indent := column
      tokens := (r.tokens.toList.insertIdx place t).toArray }
  else r

/-- Skips spaces, comments and line ends. -/
def skipToToken : Nat → Reader → Reader
  | 0, r => r
  | fuel + 1, r =>
    let c := r.cursor.skipSpaces.skipComment
    if c.head?.any isBreak then
      skipToToken fuel { r with cursor := c.next, allowsKey := r.allowsKey || !r.inFlow }
    else { r with cursor := c }

def isNameChar (c : Char) : Bool := c.isAlphanum || c == '-' || c == '_'

/-- A name, which is not empty. -/
def name (c : Cursor) : Except Problem (String × Cursor) :=
  let (cs, c) := c.span isNameChar
  if cs.isEmpty then .error .token else .ok (String.ofList cs, c)

def isUriChar (c : Char) : Bool := c.isAlphanum || "-;/?:@&=+$,_.!~*'()[]".toList.contains c

/-- The bytes of some escapes in a row. -/
def escapedBytes : List Char → Except Problem (List UInt8 × List Char)
  | '%' :: a :: b :: rest =>
    match hexNumber? [a, b] with
    | some n => (escapedBytes rest).map fun (bs, rest) => (n.toUInt8 :: bs, rest)
    | none => .error .token
  | '%' :: _ => .error .token
  | rest => .ok ([], rest)

/-- The rest of a tag, in which characters may be escaped. -/
def uriParts : Nat → Cursor → Except Problem (List Char × Cursor)
  | 0, c => .ok ([], c)
  | fuel + 1, c => do
    let (plain, c) := c.span isUriChar
    if c.head? == some '%' then
      let (bytes, _) ← escapedBytes c.rest
      match String.fromUTF8? (ByteArray.mk bytes.toArray) with
      | some s =>
        let (more, c) ← uriParts fuel (c.skip (3 * bytes.length))
        return (plain ++ s.toList ++ more, c)
      | none => .error .token
    else return (plain, c)

def uri (c : Cursor) : Except Problem (String × Cursor) := do
  let (cs, c) ← uriParts (c.rest.length + 1) c
  if cs.isEmpty then .error .token else return (String.ofList cs, c)

/-- A handle, which is a name between exclamation marks or one mark alone. -/
def handle (c : Cursor) : Except Problem (String × Cursor) :=
  if c.head? != some '!' then .error .token
  else if c.ahead 1 == some ' ' then .ok ("!", c.next)
  else
    let (cs, after) := c.next.span isNameChar
    if after.head? == some '!' then .ok (String.ofList ('!' :: cs ++ ['!']), after.next)
    else .error .token

/-- Does another exclamation mark come before the end of the word? -/
def hasHandle (c : Cursor) : Bool :=
  ((c.rest.takeWhile fun x => !endsWord (some x)).drop 1).contains '!'

def tag (c : Cursor) : Except Problem (Token × Cursor) := do
  let (t, c) ←
    if c.ahead 1 == some '<' then do
      let (suffix, c) ← uri (c.skip 2)
      if c.head? != some '>' then .error .token
      pure (Token.tag none suffix, c.next)
    else if endsToken (c.ahead 1) then pure (.tag none "!", c.next)
    else do
      let (h, c) ← if hasHandle c then handle c else pure ("!", c.next)
      let (suffix, c) ← uri c
      pure (.tag (some h) suffix, c)
  if !endsWord c.head? then .error .token
  return (t, c)

def afterName : List Char := "?:,]\x7d%@`".toList

/-- The name of a node, after the sign in front of it. -/
def nodeName (c : Cursor) : Except Problem (String × Cursor) := do
  let (n, c) ← name c.next
  if endsToken c.head? || c.head?.any afterName.contains then return (n, c) else .error .token

/-- A number of a version. -/
def versionNumber (c : Cursor) : Except Problem (String × Cursor) :=
  let (cs, c) := c.span Char.isDigit
  if cs.isEmpty then .error .token else .ok (String.ofList cs, c)

def directiveArguments (name : String) (c : Cursor) : Except Problem (List String × Cursor) := do
  match name with
  | "YAML" =>
    let (major, c) ← versionNumber c.skipSpaces
    if c.head? != some '.' then .error .token
    let (minor, c) ← versionNumber c.next
    if !endsWord c.head? then .error .token
    return ([major, minor], c)
  | "TAG" =>
    let (h, c) ← handle c.skipSpaces
    if c.head? != some ' ' then .error .token
    let (u, c) ← uri c.skipSpaces
    if !endsWord c.head? then .error .token
    return ([h, u], c)
  | _ => return ([], c.skipLine)

def directive (c : Cursor) : Except Problem (Token × Cursor) := do
  let (n, c) ← name c.next
  if !endsWord c.head? then .error .token
  let (arguments, c) ← directiveArguments n c
  let c := c.skipSpaces.skipComment
  if !endsLine c.head? then .error .token
  return (.directive n arguments, c.next)

/-- Moves past a token that is one character and adds it. -/
def take (r : Reader) (t : Token) : Reader := { r with cursor := r.cursor.next }.push t

def openFlow (r : Reader) (t : Token) : Except Problem Reader := do
  let r ← r.addCandidate
  return { r with flow := r.flow + 1, allowsKey := true }.take t

def closeFlow (r : Reader) (t : Token) : Except Problem Reader := do
  let r ← r.dropCandidate
  return { r with flow := r.flow - 1, allowsKey := false }.take t

def flowEntry (r : Reader) : Except Problem Reader := do
  let r ← { r with allowsKey := true }.dropCandidate
  return r.take .flowEntry

/-- Starts a block where a key or an item is, if that is allowed. -/
def enterBlock (r : Reader) (t : Token) : Except Problem Reader :=
  if r.inFlow then .ok r
  else if r.allowsKey then .ok (r.startBlock r.column r.tokens.size t)
  else .error .token

def blockEntry (r : Reader) : Except Problem Reader := do
  let r ← r.enterBlock .blockSequenceStart
  let r ← { r with allowsKey := true }.dropCandidate
  return r.take .blockEntry

def explicitKey (r : Reader) : Except Problem Reader := do
  let r ← r.enterBlock .blockMappingStart
  let r ← { r with allowsKey := !r.inFlow }.dropCandidate
  return r.take .key

def mappingValue (r : Reader) : Except Problem Reader := do
  match r.candidates.lookup r.flow with
  | some c =>
    let r := { r with
      candidates := r.candidates.filter fun c => c.1 != r.flow
      tokens := (r.tokens.toList.insertIdx c.place .key).toArray }
    let r := if r.inFlow then r else r.startBlock c.start.column c.place .blockMappingStart
    return { r with allowsKey := false }.take .value
  | none =>
    let r ← r.enterBlock .blockMappingStart
    let r ← { r with allowsKey := !r.inFlow }.dropCandidate
    return r.take .value

/-- Adds a token that can be a key. -/
def addNode (r : Reader) (read : Cursor → Except Problem (Token × Cursor)) :
    Except Problem Reader := do
  let r ← r.addCandidate
  let (t, c) ← read r.cursor
  return { r with cursor := c, allowsKey := false }.push t

def blockScalar (r : Reader) (folded : Bool) : Except Problem Reader := do
  let r ← { r with allowsKey := true }.dropCandidate
  let (text, c) ← block folded r.indent r.cursor.next
  return { r with cursor := c }.push (.scalar (String.ofList text) false)

def plainScalar (r : Reader) : Except Problem Reader := do
  let r ← r.addCandidate
  let s := plain r.inFlow (r.indent + 1) r.cursor
  return { r with cursor := s.cursor, allowsKey := s.endedLine }.push
    (.scalar (String.ofList s.text) true)

/-- Ends all blocks for something that stands between documents. -/
def betweenDocuments (r : Reader) : Except Problem Reader := do
  let r ← (r.unwind (-1)).dropCandidate
  return { r with allowsKey := false }

def signs : List Char := "-?:,[]\x7b\x7d#&*!|>'\"%@`".toList

def startsPlain (r : Reader) (c : Char) : Bool :=
  (!endsToken (some c) && !signs.contains c) ||
    (!endsToken (r.cursor.ahead 1) && (c == '-' || (!r.inFlow && (c == '?' || c == ':'))))

/-- Reads the token that starts with a character. -/
def readToken (r : Reader) (c : Char) : Except Problem Reader := do
  let endsSign := endsToken (r.cursor.ahead 1)
  if r.cursor.column == 0 && c == '%' then
    let r ← r.betweenDocuments
    let (t, c) ← directive r.cursor
    return { r with cursor := c }.push t
  else if r.cursor.column == 0 && r.cursor.atSeparator then
    let r ← r.betweenDocuments
    let t := if c == '-' then Token.documentStart else Token.documentEnd
    return { r with cursor := r.cursor.skip 3 }.push t
  else if c == '[' then r.openFlow .flowSequenceStart
  else if c == '\x7b' then r.openFlow .flowMappingStart
  else if c == ']' then r.closeFlow .flowSequenceEnd
  else if c == '\x7d' then r.closeFlow .flowMappingEnd
  else if c == ',' then r.flowEntry
  else if c == '-' && endsSign then r.blockEntry
  else if c == '?' && (r.inFlow || endsSign) then r.explicitKey
  else if c == ':' && (r.inFlow || endsSign) then r.mappingValue
  else if c == '*' then
    r.addNode fun c => (nodeName c).map fun (n, c) => (.alias n, c)
  else if c == '&' then
    r.addNode fun c => (nodeName c).map fun (n, c) => (.anchor n, c)
  else if c == '!' then r.addNode tag
  else if c == '|' && !r.inFlow then r.blockScalar false
  else if c == '>' && !r.inFlow then r.blockScalar true
  else if c == '\'' || c == '"' then
    r.addNode fun c => (quoted c).map fun (s, c) => (.scalar (String.ofList s) false, c)
  else if r.startsPlain c then r.plainScalar
  else .error .token

def finish (r : Reader) : Except Problem Reader := do
  let r ← (r.unwind (-1)).dropCandidate
  return { r with allowsKey := false, candidates := [], isDone := true }.push .streamEnd

/-- Reads one token more, and with it those for blocks that start or end there. -/
def advance (r : Reader) : Except Problem Reader := do
  let r ← (r.skipToToken (r.cursor.rest.length + 1)).dropStale
  let r := r.unwind r.column
  let r ← match r.cursor.head? with
    | none => r.finish
    | some c => r.readToken c
  r.dropStale

/-- How many tokens are settled: those before the first candidate. -/
def settled (r : Reader) : Nat :=
  r.candidates.foldl (fun n c => min n c.2.place) r.tokens.size

/-- Reads on until there is nothing left, or something wrong, which is given with the tokens settled
before. -/
def readAll : Nat → Reader → List Token × Option Problem
  | 0, r => (r.tokens.toList, some .token)
  | fuel + 1, r =>
    if r.isDone then (r.tokens.toList, none)
    else
      match r.advance with
      | .ok r => readAll fuel r
      | .error e => (r.tokens.toList.take r.settled, some e)

end Reader

def tokens (text : List Char) : List Token × Option Problem :=
  let text := if text.head? == some byteOrderMark then text.drop 1 else text
  Reader.readAll (text.length + 2) (.start text)

end Gridding.Yaml
