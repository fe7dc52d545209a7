import Gridding.Document.Basic
import Gridding.Numeric.IntegerPart
import Gridding.Settings.Environment
/-!
# Defaults of a request

The number of workers and the simplification tolerance come from the environment, else from the
settings, else they are unset and zero. A setting that is no number is passed over; one that is a
number beyond the range of the kind it should have is refused.
-/

namespace Gridding

structure Defaults where
  workers : Option Int
  tolerance : Float
  deriving BEq, Repr

namespace Defaults

/-- What comes of a setting. -/
inductive Reading (α : Type) where
  | value (a : α)
  | ignored
  | outOfRange
  deriving DecidableEq, Repr

def readWorkers : Document → Reading Int
  | .bool b => .value (if b then 1 else 0)
  | .integer n => .value n
  | .number x =>
    match integerPart? x with
    | .ok n => .value n
    | .error .notANumber => .ignored
    | .error .infinite => .outOfRange
  | .text s =>
    match readInteger? s with
    | some n => .value n
    | none => .ignored
  | _ => .ignored

def readTolerance : Document → Reading Float
  | .bool b => .value (if b then 1.0 else 0.0)
  | .integer n =>
    let x := floatOfInt n
    if x.isInf then .outOfRange else .value x
  | .number x => .value x
  | .text s =>
    match readFloat? s with
    | some x => .value x
    | none => .ignored
  | _ => .ignored

/-- A setting is out of the range of numbers. -/
inductive Refusal where
  | outOfRange
  deriving DecidableEq, Repr

def setting {α : Type} (read : Document → Reading α) (settings : List (String × Document))
    (name : String) (default : α) : Except Refusal α :=
  match (settings.find? fun m => m.1 == name).map (·.2) with
  | none => .ok default
  | some Document.null => .ok default
  | some d =>
    match read d with
    | .value a => .ok a
    | .ignored => .ok default
    | .outOfRange => .error .outOfRange

/-- The defaults under some settings and the value of the environment variable for workers. -/
def resolve (settings : List (String × Document)) (workersVariable : Option String) :
    Except Refusal Defaults := do
  let workers ← setting (fun d => match readWorkers d with
    | .value n => .value (some n)
    | .ignored => .ignored
    | .outOfRange => .outOfRange) settings "workers" none
  let tolerance ← setting readTolerance settings "simplify_tolerance" 0.0
  return ⟨(Environment.integer? workersVariable).or workers, tolerance⟩

end Defaults

/-- An explicit positive number of workers; otherwise the machine decides. -/
def explicitWorkers? : Option Int → Option Nat
  | some n => if n > 0 then some n.toNat else none
  | none => none

/-- The explicit number of workers that a value asks for. One between zero and one asks for none at
all. -/
def requestedWorkers? : Document → Except NumberError (Option Nat)
  | .number x => if x > 0.0 then (integerPart? x).map fun n => some n.toNat else .ok none
  | .integer n => .ok (explicitWorkers? (some n))
  | .bool b => .ok (if b then some 1 else none)
  | _ => .ok none

end Gridding
