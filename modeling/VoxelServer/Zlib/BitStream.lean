import VoxelServer.Bytes

/-!
# Bits of a byte string

Compressed data is a stream of bits, the least significant bit of each byte first.

* `BitStream`: what is left of such a stream.
* `BitReader`: programs that take bits off its front, and fail when it ends.
-/

namespace VoxelServer

/-- Bytes of which the first `used` bits are gone. `used` is below 8. -/
structure BitStream where
  used : Nat
  bytes : Bytes

abbrev BitReader := StateT BitStream Option

namespace BitStream

def ofBytes (bytes : Bytes) : BitStream := ⟨0, bytes⟩

/-- The next bit. -/
def bit : BitReader Nat := fun s =>
  match s.bytes with
  | [] => none
  | b :: rest =>
    let value := (b.toNat >>> s.used) % 2
    if s.used == 7 then some (value, ⟨0, rest⟩) else some (value, ⟨s.used + 1, s.bytes⟩)

/-- A number of `n` bits, the least significant first. -/
def bits : (n : Nat) → BitReader Nat
  | 0 => return 0
  | n + 1 => do
    let low ← bit
    let high ← bits n
    return low + 2 * high

/-- Drops what is left of a byte that has been begun. -/
def align : BitReader Unit := fun s =>
  if s.used == 0 then some ((), s) else some ((), ⟨0, s.bytes.drop 1⟩)

/-- The next `n` bytes of an aligned stream. -/
def takeBytes (n : Nat) : BitReader Bytes := fun s =>
  let front := s.bytes.take n
  if front.length = n then some (front, ⟨s.used, s.bytes.drop n⟩) else none

end BitStream

end VoxelServer
