import VoxelServer.Binary
import VoxelServer.Wire.Decoder

/-!
# Numbers on the wire

A `Wire` type has one encoding and reads it back from the front of a byte string. Here are those
of a fixed width, most significant byte first, and the variable length integers: seven bits a
byte, least significant group first, the top bit set on all bytes but the last.

* `Wire`: the class.
* `VarInt`, `VarLong`: 32 and 64 bit integers of variable length.
* `varNumLength`: how many bytes one takes.
-/

namespace VoxelServer

class Wire (α : Type) where
  encode : α → Bytes
  decode : Decoder α

/-- Wire types whose encoding is the `width` bytes of a number. -/
@[reducible]
def Wire.ofWord {α : Type} (width : Nat) (toNat : α → Nat) (ofNat : Nat → α) : Wire α where
  encode a := Bytes.ofNatBE width (toNat a)
  decode := do return ofNat (← take width).toNatBE

instance : Wire UInt8 := .ofWord 1 UInt8.toNat UInt8.ofNat
instance : Wire UInt16 := .ofWord 2 UInt16.toNat UInt16.ofNat
instance : Wire UInt64 := .ofWord 8 UInt64.toNat UInt64.ofNat
instance : Wire Int8 := .ofWord 1 (·.toUInt8.toNat) Int8.ofNat
instance : Wire Int16 := .ofWord 2 (·.toUInt16.toNat) Int16.ofNat
instance : Wire Int32 := .ofWord 4 (·.toUInt32.toNat) Int32.ofNat
instance : Wire Int64 := .ofWord 8 (·.toUInt64.toNat) Int64.ofNat
instance : Wire Single := .ofWord 4 (·.bits.toNat) (⟨UInt32.ofNat ·⟩)
instance : Wire Double := .ofWord 8 (·.bits.toNat) (⟨UInt64.ofNat ·⟩)

/-- One byte, 0 or 1. -/
instance : Wire Bool where
  encode b := [if b then 1 else 0]
  decode := do
    let b : UInt8 ← Wire.decode
    if b == 0 then return false
    else if b == 1 then return true
    else throw (.invalidValue "bool" b.toNat)

instance : Wire Unit where
  encode _ := []
  decode := return ()

/-- The groups of seven bits of a number. -/
def encodeVarNum (n : Nat) : Bytes :=
  if n < 128 then [UInt8.ofNat n]
  else UInt8.ofNat (n % 128 + 128) :: encodeVarNum (n / 128)
termination_by n

/-- How many groups of seven bits a number has. -/
def varNumLength (n : Nat) : Nat :=
  if n < 128 then 1 else varNumLength (n / 128) + 1
termination_by n

/-- Reads at most `max` groups, of which `seen` are behind already. -/
def decodeVarNumFrom (max seen : Nat) : (left : Nat) → Decoder Nat
  | 0, _ => .error (.varNumTooLong max)
  | left + 1, input =>
    match input with
    | [] => .error (.truncated (seen + 1) seen)
    | b :: rest =>
      if b < 128 then .ok (b.toNat, rest)
      else do
        let (n, rest) ← decodeVarNumFrom max (seen + 1) left rest
        return (b.toNat % 128 + 128 * n, rest)

def decodeVarNum (max : Nat) : Decoder Nat := decodeVarNumFrom max 0 max

structure VarInt where
  value : Int32
  deriving DecidableEq, Repr, Inhabited

structure VarLong where
  value : Int64
  deriving DecidableEq, Repr, Inhabited

/-- At most five bytes; surplus bits of the fifth are dropped. -/
instance : Wire VarInt where
  encode v := encodeVarNum v.value.toUInt32.toNat
  decode := do return ⟨Int32.ofNat (← decodeVarNum 5)⟩

/-- At most ten bytes; surplus bits of the tenth are dropped. -/
instance : Wire VarLong where
  encode v := encodeVarNum v.value.toUInt64.toNat
  decode := do return ⟨Int64.ofNat (← decodeVarNum 10)⟩

/-- How many bytes the variable length form of a 32-bit integer takes. -/
def VarInt.length (v : VarInt) : Nat := varNumLength v.value.toUInt32.toNat

/-- A count or length, which must fit 32 bits to be read back. -/
def VarInt.ofLength (n : Nat) : VarInt := ⟨Int32.ofNat n⟩

end VoxelServer
