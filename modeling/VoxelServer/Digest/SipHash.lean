import VoxelServer.Bytes

/-!
# The SipHash-1-3 hash with zero keys

One mixing round for each word of eight bytes and three at the end.

* `SipHash.hash`: the 64-bit hash of a byte string.
-/

namespace VoxelServer.SipHash

structure State where
  v0 : UInt64
  v1 : UInt64
  v2 : UInt64
  v3 : UInt64

def initial : State :=
  ⟨0x736F6D6570736575, 0x646F72616E646F6D, 0x6C7967656E657261, 0x7465646279746573⟩

def rotateLeft (x n : UInt64) : UInt64 := x <<< n ||| x >>> (64 - n)

def round (s : State) : State :=
  let v0 := s.v0 + s.v1
  let v2 := s.v2 + s.v3
  let v1 := rotateLeft s.v1 13 ^^^ v0
  let v3 := rotateLeft s.v3 16 ^^^ v2
  let v0 := rotateLeft v0 32
  let v2 := v2 + v1
  let v0 := v0 + v3
  let v1 := rotateLeft v1 17 ^^^ v2
  let v3 := rotateLeft v3 21 ^^^ v0
  ⟨v0, v1, rotateLeft v2 32, v3⟩

/-- Mixes in one word. -/
def absorb (s : State) (word : UInt64) : State :=
  let t := round { s with v3 := s.v3 ^^^ word }
  { t with v0 := t.v0 ^^^ word }

/-- The words of a byte string, `count` full ones and a last one that ends in the length. -/
def words (length : Nat) : (count : Nat) → Bytes → List UInt64
  | 0, bytes => [UInt64.ofNat (bytes.toNatLE + (length % 256) <<< 56)]
  | count + 1, bytes =>
    UInt64.ofNat (Bytes.toNatLE (bytes.take 8)) :: words length count (bytes.drop 8)

def hash (bytes : Bytes) : UInt64 :=
  let s := (words bytes.length (bytes.length / 8) bytes).foldl absorb initial
  let t := round (round (round { s with v2 := s.v2 ^^^ 0xFF }))
  t.v0 ^^^ t.v1 ^^^ t.v2 ^^^ t.v3

end VoxelServer.SipHash
