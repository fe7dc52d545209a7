import Gridding.Document.Basic
import Gridding.Text.Quoted
/-!
# Documents in messages

`display` is the text of a value as it stands in a sentence or a key, and `shown` the form in which
a message quotes it. They differ for texts only.
-/

namespace Gridding.Document

mutual

def shown : Document → String
  | null => "None"
  | bool b => if b then "True" else "False"
  | integer n => toString n
  | number x => Decimal.shortest x
  | text s => Text.quoted s
  | list ds => "[" ++ ", ".intercalate (shownItems ds) ++ "]"
  | object ms => "\x7b" ++ ", ".intercalate (shownMembers ms) ++ "\x7d"

def shownItems : List Document → List String
  | [] => []
  | d :: ds => shown d :: shownItems ds

def shownMembers : List (String × Document) → List String
  | [] => []
  | (name, d) :: ms => (Text.quoted name ++ ": " ++ shown d) :: shownMembers ms

end

def display : Document → String
  | text s => s
  | d => shown d

/-- Nothing, zero, and empty texts, lists and objects do not count as given. -/
def isGiven : Document → Bool
  | null => false
  | bool b => b
  | integer n => n != 0
  | number x => x != 0.0
  | text s => !s.isEmpty
  | list ds => !ds.isEmpty
  | object ms => !ms.isEmpty

end Gridding.Document
