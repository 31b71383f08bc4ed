import VoxelServer.Bytes

/-!
# The Adler-32 checksum

Two sums modulo the largest prime below `2 ^ 16`: of the bytes, and of the first sum as it grows.
-/

namespace VoxelServer.Adler

def modulus : Nat := 65521

/-- Both sums after one more byte. -/
def step (sums : Nat × Nat) (b : UInt8) : Nat × Nat :=
  let low := (sums.1 + b.toNat) % modulus
  (low, (sums.2 + low) % modulus)

def checksum (bytes : Bytes) : Nat :=
  let sums := bytes.foldl step (1, 0)
  sums.2 * 65536 + sums.1

end VoxelServer.Adler
