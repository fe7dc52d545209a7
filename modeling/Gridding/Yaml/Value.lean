import Gridding.Document.Display
import Gridding.Entries
import Gridding.Yaml.Node
import Gridding.Yaml.Plain
/-!
# Documents written in YAML

The nodes of a text become a document. Dates become texts, and so do the names of members that are
not texts. A mapping takes over the members of others that it refers to by the merge key, but its
own come before them, and of those the ones named first.
-/

namespace Gridding.Yaml

/-- The kind of a scalar, if there is one with its tag. -/
def scalarKind? (tag : Option String) (text : String) (isPlain : Bool) : Option Kind :=
  match tag with
  | none => some (if isPlain then Plain.kind text else .text)
  | some "!" => some (Plain.kind text)
  | some t =>
    [("null", Kind.null), ("bool", .flag), ("int", .integer), ("float", .number),
      ("timestamp", .time), ("str", .text), ("binary", .text), ("merge", .merge),
      ("value", .whole)].findSome? fun (name, kind) =>
        if t == Parser.coreHandle ++ name then some kind else none

def isTag (tag : Option String) (names : List String) : Bool :=
  match tag with
  | none => true
  | some t => t == "!" || names.any fun n => t == Parser.coreHandle ++ n

def scalarValue (kind : Kind) (text : String) : Except Problem Document :=
  match kind with
  | .null => .ok .null
  | .text => .ok (.text text)
  | .flag =>
    match Plain.flagWords.lookup text.toLower with
    | some b => .ok (.bool b)
    | none => .error .flag
  | .integer =>
    match Plain.integer? text with
    | some n => .ok (.integer n)
    | none => .error .number
  | .number =>
    match Plain.number? text with
    | some x => .ok (.number x)
    | none => .error .number
  | .time =>
    match Plain.time? text.toList with
    | some t => if t.isValid then .ok (.text t.text) else .error .number
    | none => .error .value
  | .merge | .whole => .error .value

/-- The name of a member; lists and objects are no names. -/
def memberName : Document → Except Problem String
  | .list _ => .error .value
  | .object _ => .error .value
  | d => .ok d.display

def isKey (kind : Kind) : Node → Bool
  | .scalar tag text isPlain => scalarKind? tag text isPlain == some kind
  | _ => false

mutual

def value : Node → Except Problem Document
  | .scalar tag text isPlain =>
    match scalarKind? tag text isPlain with
    | some kind => scalarValue kind text
    | none => .error .value
  | .sequence tag items =>
    if isTag tag ["seq", "omap", "pairs"] then (values items).map .list else .error .value
  | .mapping tag pairs =>
    if isTag tag ["map", "set"] then do
      let (merged, own) ← split pairs
      return .object ((merged ++ own).foldl (fun ms m => Entries.put m.1 m.2 ms) [])
    else .error .value

def values : List Node → Except Problem (List Document)
  | [] => .ok []
  | n :: ns => do
    let d ← value n
    return d :: (← values ns)

/-- The members that a mapping takes over, and its own. -/
def split : List (Node × Node) →
    Except Problem (List (String × Document) × List (String × Document))
  | [] => .ok ([], [])
  | (k, v) :: rest => do
    if isKey .merge k then
      let found ← taken v
      let (merged, own) ← split rest
      return (found ++ merged, own)
    else
      let name ← if isKey .whole k then pure "=" else value k >>= memberName
      let d ← value v
      let (merged, own) ← split rest
      return (merged, (name, d) :: own)

/-- The members to be taken over from a mapping, or from several. -/
def taken : Node → Except Problem (List (String × Document))
  | .mapping _ pairs => do
    let (merged, own) ← split pairs
    return merged ++ own
  | .sequence _ items => takenAll items
  | .scalar .. => .error .value

/-- The members of the last mapping come first, so that those of the first one count. -/
def takenAll : List Node → Except Problem (List (String × Document))
  | [] => .ok []
  | .mapping _ pairs :: rest => do
    let (merged, own) ← split pairs
    return (← takenAll rest) ++ merged ++ own
  | _ :: _ => .error .value

end

def isPrintable (c : Char) : Bool :=
  let n := c.toNat
  n == 9 || n == 10 || n == 13 || (32 ≤ n && n ≤ 126) || n == 0x85 || (0xA0 ≤ n && n ≤ 0xD7FF) ||
    (0xE000 ≤ n && n ≤ 0xFFFD) || 0x10000 ≤ n

/-- All line ends as line feeds. -/
def lineFeeds : List Char → List Char
  | '\r' :: '\n' :: rest => '\n' :: lineFeeds rest
  | '\r' :: rest => '\n' :: lineFeeds rest
  | c :: rest => c :: lineFeeds rest
  | [] => []

/-- The document of a text, null if it is empty. -/
def read (text : String) : Except Problem Document := do
  let cs := lineFeeds text.toList
  if !cs.all isPrintable then .error .unprintable
  match ← document? cs with
  | some n => value n
  | none => return .null

end Gridding.Yaml
