import Gridding.Hashing.Sha1
/-!
# Identifiers of locations

A location is known in records by the first sixteen hexadecimal digits of the hash of its key and
of the bytes of its geometry.
-/

namespace Gridding

def locationId (key : String) (bytes : List UInt8) : String :=
  String.ofList ((Sha1.hex (Sha1.digest (key.toUTF8.toList ++ bytes))).toList.take 16)

end Gridding
