import VoxelServer.Uuid
import VoxelServer.Wire.Number

/-!
# Text on the wire

A string is its UTF-8 bytes behind their number. Readers set a limit on that number, and refuse
it before they look at the bytes.

* `bytesUpTo`, `textUpTo`: byte strings and text of limited length.
* The instance for `String` has the protocol's own limit, `maxTextLength`.
-/

namespace VoxelServer

/-- The longest string a peer may send, in bytes. -/
def maxTextLength : Nat := 32767

/-- A byte string behind its length, which is at most `max`. -/
def bytesUpTo (max : Nat) : Decoder Bytes := do
  let length : VarInt ← Wire.decode
  let n := length.value.toInt
  if n < 0 then throw (.negativeLength n)
  else if n.toNat > max then throw (.tooLong n.toNat max)
  else take n.toNat

/-- A text behind the length of its bytes, which is at most `max`. -/
def textUpTo (max : Nat) : Decoder String := do
  let bytes ← bytesUpTo max
  match Utf8.decode bytes with
  | .ok text => return text
  | .error fault => throw (.invalidUtf8 fault)

def encodeText (text : String) : Bytes :=
  let bytes := Utf8.encode text
  Wire.encode (VarInt.ofLength bytes.length) ++ bytes

instance : Wire String where
  encode := encodeText
  decode := textUpTo maxTextLength

/-- Sixteen bytes. -/
instance : Wire Uuid where
  encode := Uuid.toBytes
  decode := do return Uuid.ofBytes (← take 16)

end VoxelServer
