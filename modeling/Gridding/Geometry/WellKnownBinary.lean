import Gridding.Geometry.Basic
/-!
# Well-known binary form of a geometry

Every geometry starts with the byte 1 for little-endian order and its kind, to which the highest
bit is added where vertices have heights. Counts are 32-bit words and coordinates doubles. A point
without a vertex is written with NaN coordinates and a ring like a line. `decode` reads what
`encode` writes.
-/

namespace Gridding.WellKnownBinary

def littleEndian (count : Nat) (n : Nat) : List UInt8 :=
  (List.range count).map fun i => (n / Nat.pow 256 i % 256).toUInt8

def word (n : Nat) : List UInt8 := littleEndian 4 n

def double (x : Float) : List UInt8 := littleEndian 8 x.toBits.toNat

private def heightFlag : Nat := 0x80000000

private def head (kind : Nat) (heights : Bool) : List UInt8 :=
  1 :: word (if heights then kind + heightFlag else kind)

private def notANumber : Float := Float.ofBits 0x7FF8000000000000

private def vertex (heights : Bool) (v : Vertex) : List UInt8 :=
  double v.x ++ double v.y ++ (if heights then double (v.height.getD notANumber) else [])

private def run (heights : Bool) (vs : List Vertex) : List UInt8 :=
  word vs.length ++ vs.flatMap (vertex heights)

private def hasHeights (g : Geometry) : Bool := g.vertices.any fun v => v.height.isSome

mutual

def encode (g : Geometry) : List UInt8 :=
  let heights := hasHeights g
  match g with
  | .point none => head 1 false ++ double notANumber ++ double notANumber
  | .point (some v) => head 1 heights ++ vertex heights v
  | .lineString vs => head 2 heights ++ run heights vs
  | .linearRing vs => head 2 heights ++ run heights vs
  | .polygon rings => head 3 heights ++ word rings.length ++ rings.flatMap (run heights)
  | .collection family ps =>
    let kind := match family with
      | .points => 4
      | .lines => 5
      | .polygons => 6
      | .mixed => 7
    head kind heights ++ word ps.length ++ encodeParts ps

def encodeParts : List Geometry → List UInt8
  | [] => []
  | g :: gs => encode g ++ encodeParts gs

end

private def takeNumber (count : Nat) (bytes : List UInt8) : Option (Nat × List UInt8) :=
  if bytes.length < count then none
  else some ((bytes.take count).foldr (fun b n => b.toNat + 256 * n) 0, bytes.drop count)

private def takeDouble (bytes : List UInt8) : Option (Float × List UInt8) :=
  (takeNumber 8 bytes).map fun (n, rest) => (Float.ofBits n.toUInt64, rest)

private def takeVertex (heights : Bool) (bytes : List UInt8) : Option (Vertex × List UInt8) := do
  let (x, rest) ← takeDouble bytes
  let (y, rest) ← takeDouble rest
  if heights then
    let (z, rest) ← takeDouble rest
    return (⟨⟨x, y⟩, some z⟩, rest)
  else return (⟨⟨x, y⟩, none⟩, rest)

/-- Reads `count` items one after the other. -/
private def takeMany {α : Type} (item : List UInt8 → Option (α × List UInt8)) :
    Nat → List UInt8 → Option (List α × List UInt8)
  | 0, bytes => some ([], bytes)
  | count + 1, bytes => do
    let (a, rest) ← item bytes
    let (as, rest) ← takeMany item count rest
    return (a :: as, rest)

private def takeRun (heights : Bool) (bytes : List UInt8) : Option (List Vertex × List UInt8) := do
  let (count, rest) ← takeNumber 4 bytes
  takeMany (takeVertex heights) (min count rest.length) rest

/-- Reads one geometry; `depth` bounds the nesting of collections. -/
private def take : Nat → List UInt8 → Option (Geometry × List UInt8)
  | 0, _ => none
  | depth + 1, bytes => do
    let (order, rest) ← takeNumber 1 bytes
    let (code, rest) ← takeNumber 4 rest
    if order != 1 then none
    else
      let heights := heightFlag ≤ code
      let parts (family : Family) : Option (Geometry × List UInt8) := do
        let (count, rest) ← takeNumber 4 rest
        let (gs, rest) ← takeMany (take depth) (min count rest.length) rest
        return (.collection family gs, rest)
      match code % heightFlag with
      | 1 =>
        let (v, rest) ← takeVertex heights rest
        return (.point (if v.x.isNaN && v.y.isNaN then none else some v), rest)
      | 2 =>
        let (vs, rest) ← takeRun heights rest
        return (.lineString vs, rest)
      | 3 =>
        let (count, rest) ← takeNumber 4 rest
        let (rings, rest) ← takeMany (takeRun heights) (min count rest.length) rest
        return (.polygon rings, rest)
      | 4 => parts .points
      | 5 => parts .lines
      | 6 => parts .polygons
      | 7 => parts .mixed
      | _ => none

def decode (bytes : List UInt8) : Option Geometry :=
  match take (bytes.length + 1) bytes with
  | some (g, []) => some g
  | _ => none

end Gridding.WellKnownBinary
