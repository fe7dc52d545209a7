import Gridding.Yaml.Token
/-!
# Nodes of YAML

A document is a tree of nodes: scalars, sequences and mappings, each with its tag if it has one. A
node with a name may occur again under its name; inside itself it counts as empty.

`document?` reads the nodes of a text that holds at most one document.
-/

namespace Gridding.Yaml

inductive Node where
  /-- The tag of a scalar may depend on its text if it is written plainly. -/
  | scalar (tag : Option String) (text : String) (isPlain : Bool)
  | sequence (tag : Option String) (items : List Node)
  | mapping (tag : Option String) (pairs : List (Node × Node))
  deriving Inhabited

/-- What is left to read, and what is known by now. -/
structure Parse where
  tokens : List Token
  /-- What is wrong after the last token. -/
  problem : Option Problem
  handles : List (String × String)
  anchors : List (String × Node)

abbrev Parser := StateT Parse (Except Problem)

namespace Parser

def coreHandle : String := "tag:yaml.org,2002:"

def standardHandles : List (String × String) := [("!", "!"), ("!!", coreHandle)]

def fail {α : Type} (p : Problem) : Parser α := throw p

def peek : Parser Token := do
  let s ← get
  match s.tokens with
  | t :: _ => return t
  | [] => fail (s.problem.getD .grammar)

def drop : Parser Unit := modify fun s => { s with tokens := s.tokens.tail }

/-- Drops the next token if it is the given one. -/
def accept (t : Token) : Parser Bool := do
  if (← peek) = t then
    drop
    return true
  else return false

def expect (t : Token) : Parser Unit := do
  if !(← accept t) then fail .grammar

def empty : Node := .scalar none "" true

/-- The whole tag for a handle and what follows it. -/
def fullTag (handle : Option String) (suffix : String) : Parser String := do
  match handle with
  | none => return suffix
  | some h =>
    match (← get).handles.lookup h with
    | some u => return u ++ suffix
    | none => fail .grammar

/-- The name and the tag in front of a node, in either order. -/
def properties : Parser (Option String × Option (Option String × String)) := do
  match ← peek with
  | .anchor n =>
    drop
    match ← peek with
    | .tag h s =>
      drop
      return (some n, some (h, s))
    | _ => return (some n, none)
  | .tag h s =>
    drop
    match ← peek with
    | .anchor n =>
      drop
      return (some n, some (h, s))
    | _ => return (none, some (h, s))
  | _ => return (none, none)

/-- Gives a name to a node; a new name is needed. -/
def declare (name : Option String) (n : Node) : Parser Unit := do
  match name with
  | none => return ()
  | some name =>
    if ((← get).anchors.lookup name).isSome then fail .reference
    else modify fun s => { s with anchors := (name, n) :: s.anchors }

/-- Puts the finished node of a name in the place of the empty one. -/
def complete (name : Option String) (n : Node) : Parser Node := do
  match name with
  | none => return n
  | some name =>
    modify fun s =>
      { s with anchors := s.anchors.map fun a => if a.1 == name then (name, n) else a }
    return n

/-- Where a node stands. -/
inductive Context where
  | block
  /-- The items of a sequence need no indentation here. -/
  | blockValue
  | flow
  deriving DecidableEq

def isBlock : Context → Bool
  | .flow => false
  | _ => true

mutual

def node : Nat → Context → Parser Node
  | 0, _ => fail .grammar
  | fuel + 1, context => do
    if let .alias name ← peek then
      drop
      match (← get).anchors.lookup name with
      | some n => return n
      | none => fail .reference
    else
      let (name, given) ← properties
      let tag ← match given with
        | some (h, s) => some <$> fullTag h s
        | none => pure none
      let named (n : Node) : Parser Node := do
        declare name n
        return n
      let sequence (items : Parser (List Node)) : Parser Node := do
        declare name (.sequence tag [])
        complete name (.sequence tag (← items))
      let mapping (pairs : Parser (List (Node × Node))) : Parser Node := do
        declare name (.mapping tag [])
        complete name (.mapping tag (← pairs))
      match ← peek with
      | .blockEntry =>
        if context = .blockValue then sequence (bareItems fuel)
        else if name.isSome || tag.isSome then named (.scalar tag "" true)
        else fail .grammar
      | .scalar text isPlain =>
        drop
        named (.scalar tag text isPlain)
      | .flowSequenceStart =>
        drop
        sequence (flowItems fuel true)
      | .flowMappingStart =>
        drop
        mapping (flowPairs fuel true)
      | .blockSequenceStart =>
        if isBlock context then
          drop
          sequence (blockItems fuel)
        else if name.isSome || tag.isSome then named (.scalar tag "" true)
        else fail .grammar
      | .blockMappingStart =>
        if isBlock context then
          drop
          mapping (blockPairs fuel)
        else if name.isSome || tag.isSome then named (.scalar tag "" true)
        else fail .grammar
      | _ =>
        if name.isSome || tag.isSome then named (.scalar tag "" true) else fail .grammar

/-- A node, or an empty one if one of the given tokens follows. -/
def nodeUnless (ends : List Token) : Nat → Context → Parser Node
  | 0, _ => fail .grammar
  | fuel + 1, context => do
    if ends.contains (← peek) then return empty else node fuel context

def blockItems : Nat → Parser (List Node)
  | 0 => fail .grammar
  | fuel + 1 => do
    if ← accept .blockEntry then
      let n ← nodeUnless [.blockEntry, .blockEnd] fuel .block
      return n :: (← blockItems fuel)
    else
      expect .blockEnd
      return []

/-- Items without indentation of their own. -/
def bareItems : Nat → Parser (List Node)
  | 0 => fail .grammar
  | fuel + 1 => do
    if ← accept .blockEntry then
      let n ← nodeUnless [.blockEntry, .key, .value, .blockEnd] fuel .block
      return n :: (← bareItems fuel)
    else return []

def blockPairs : Nat → Parser (List (Node × Node))
  | 0 => fail .grammar
  | fuel + 1 => do
    if ← accept .key then
      let k ← nodeUnless [.key, .value, .blockEnd] fuel .blockValue
      let v ← if ← accept .value then nodeUnless [.key, .value, .blockEnd] fuel .blockValue
        else pure empty
      return (k, v) :: (← blockPairs fuel)
    else
      expect .blockEnd
      return []

/-- The key and the value after a key sign in a flow collection. -/
def flowPair (close : Token) : Nat → Parser (Node × Node)
  | 0 => fail .grammar
  | fuel + 1 => do
    let k ← nodeUnless [.value, .flowEntry, close] fuel .flow
    let v ← if ← accept .value then nodeUnless [.flowEntry, close] fuel .flow else pure empty
    return (k, v)

def flowItems : Nat → Bool → Parser (List Node)
  | 0, _ => fail .grammar
  | fuel + 1, isFirst => do
    if ← accept .flowSequenceEnd then return []
    if !isFirst then expect .flowEntry
    if ← accept .key then
      let pair ← flowPair .flowSequenceEnd fuel
      return .mapping none [pair] :: (← flowItems fuel false)
    else if ← accept .flowSequenceEnd then return []
    else
      let n ← node fuel .flow
      return n :: (← flowItems fuel false)

def flowPairs : Nat → Bool → Parser (List (Node × Node))
  | 0, _ => fail .grammar
  | fuel + 1, isFirst => do
    if ← accept .flowMappingEnd then return []
    if !isFirst then expect .flowEntry
    if ← accept .key then
      let pair ← flowPair .flowMappingEnd fuel
      return pair :: (← flowPairs fuel false)
    else if ← accept .flowMappingEnd then return []
    else
      let k ← node fuel .flow
      return (k, empty) :: (← flowPairs fuel false)

end

def dropDocumentEnds : Nat → Parser Unit
  | 0 => return ()
  | fuel + 1 => do
    if ← accept .documentEnd then dropDocumentEnds fuel

/-- Reads the directives in front of a document. -/
def directives :
    Nat → (hasVersion : Bool) → List (String × String) → Parser (List (String × String))
  | 0, _, handles => return handles
  | fuel + 1, hasVersion, handles => do
    match ← peek with
    | .directive "YAML" [major, _] =>
      drop
      if hasVersion || major != "1" then fail .grammar
      directives fuel true handles
    | .directive "TAG" [h, u] =>
      drop
      if (handles.lookup h).isSome then fail .grammar
      directives fuel hasVersion ((h, u) :: handles)
    | .directive _ _ =>
      drop
      directives fuel hasVersion handles
    | _ => return handles

def isDirective : Token → Bool
  | .directive _ _ => true
  | _ => false

/-- Goes to the start of a document; false if there is none. -/
def documentStart (fuel : Nat) : Parser Bool := do
  dropDocumentEnds fuel
  if (← peek) = .streamEnd then return false
  let handles ← directives fuel false []
  let standard := standardHandles.filter fun h => (handles.lookup h.1).isNone
  modify fun s => { s with handles := handles ++ standard }
  expect .documentStart
  return true

/-- The document of a text, if it is not empty. -/
def only (fuel : Nat) : Parser (Option Node) := do
  let first ← peek
  if first = .streamEnd then return none
  let isBare := !isDirective first && first != .documentStart
  let isStarted ← if isBare then pure true else documentStart fuel
  if !isStarted then return none
  let next ← peek
  let ends := next = .documentEnd || next = .streamEnd || next = .documentStart || isDirective next
  let n ← if !isBare && ends then pure empty else node fuel .block
  let _ ← accept .documentEnd
  if ← documentStart fuel then fail .reference
  return some n

end Parser

/-- How many steps the reading of tokens can take. -/
def stepsFor (ts : List Token) : Nat := 3 * ts.length + 10

def document? (text : List Char) : Except Problem (Option Node) :=
  let (ts, problem) := tokens text
  ((Parser.only (stepsFor ts)).run ⟨ts, problem, Parser.standardHandles, []⟩).map (·.1)

end Gridding.Yaml
