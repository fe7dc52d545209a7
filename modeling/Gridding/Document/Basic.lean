import Gridding.Numeric.Decimal
/-!
# Documents

A document is null, a truth value, an integer of any size, a double, a text, a list, or an object
with named members in order.
-/

namespace Gridding

inductive Document where
  | null
  | bool (b : Bool)
  | integer (n : Int)
  | number (x : Float)
  | text (s : String)
  | list (items : List Document)
  | object (members : List (String × Document))
  deriving BEq, Repr, Inhabited

namespace Document

def member? (name : String) : Document → Option Document
  | object ms => (ms.find? fun m => m.1 == name).map (·.2)
  | _ => none

end Document

end Gridding
