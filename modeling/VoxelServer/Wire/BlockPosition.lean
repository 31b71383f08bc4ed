import VoxelServer.Vec
import VoxelServer.Wire.Number

/-!
# Packed block positions

The place of a block in one 64-bit word: 26 bits of `x`, 12 of `y` and 26 of `z`, from the top,
each in two's complement.
-/

namespace VoxelServer

/-- A block position that travels packed into a word. -/
structure BlockPosition where
  position : Vec3 Int32
  deriving DecidableEq, Repr, Inhabited

namespace BlockPosition

/-- The low `width` bits of an integer, as a number. -/
def field (width : Nat) (n : Int) : Nat := (n % Int.ofNat (1 <<< width)).toNat

/-- The integer in two's complement whose low `width` bits these are. -/
def signed (width : Nat) (n : Nat) : Int := (n : Int).bmod (1 <<< width)

/-- From the top: 26 bits of x, 12 bits of y and 26 bits of z. -/
def pack (p : BlockPosition) : Nat :=
  field 26 p.position.x.toInt <<< 38
    + field 12 p.position.y.toInt <<< 26
    + field 26 p.position.z.toInt

/-- The position a word holds. Every word holds one. -/
def unpack (word : Nat) : BlockPosition where
  position :=
    { x := Int32.ofInt (signed 26 (word >>> 38))
      y := Int32.ofInt (signed 12 ((word >>> 26) % (1 <<< 12)))
      z := Int32.ofInt (signed 26 (word % (1 <<< 26))) }

instance : Wire BlockPosition := .ofWord 8 pack unpack

end BlockPosition

end VoxelServer
