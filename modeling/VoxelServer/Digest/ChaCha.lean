import VoxelServer.Bytes

/-!
# A stream of random words

The ChaCha block function with twelve rounds, a 64-bit block counter and no nonce, its key
stretched from a 64-bit seed by a linear generator.

* `ChaCha.keyOfSeed`: the key of a seed.
* `ChaCha.words`: the first words of the stream.
-/

namespace VoxelServer.ChaCha

def rotateRight (x n : UInt32) : UInt32 := x >>> n ||| x <<< ((32 - n) % 32)

def rotateLeft (x n : UInt32) : UInt32 := x <<< n ||| x >>> (32 - n)

/-- The generator's next state, and 32 bits drawn from it. -/
def stretch (s : UInt64) : UInt64 × UInt32 :=
  let s := s * 6364136223846793005 + 11634580027462260723
  let mixed := ((s >>> 18) ^^^ s) >>> 27
  (s, rotateRight mixed.toUInt32 (s >>> 59).toUInt32)

def stretchWords : (count : Nat) → UInt64 → List UInt32
  | 0, _ => []
  | count + 1, s =>
    let (s, word) := stretch s
    word :: stretchWords count s

/-- The eight words of the key. -/
def keyOfSeed (seed : UInt64) : List UInt32 := stretchWords 8 seed

/-- Mixes the words at four places. -/
def quarter (s : Array UInt32) (p : Nat × Nat × Nat × Nat) : Array UInt32 :=
  let (i, j, k, l) := p
  let (a, b, c, d) := (s.getD i 0, s.getD j 0, s.getD k 0, s.getD l 0)
  let a := a + b
  let d := rotateLeft (d ^^^ a) 16
  let c := c + d
  let b := rotateLeft (b ^^^ c) 12
  let a := a + b
  let d := rotateLeft (d ^^^ a) 8
  let c := c + d
  let b := rotateLeft (b ^^^ c) 7
  (((s.setIfInBounds i a).setIfInBounds j b).setIfInBounds k c).setIfInBounds l d

/-- The columns, then the diagonals. -/
def doubleRound (s : Array UInt32) : Array UInt32 :=
  [(0, 4, 8, 12), (1, 5, 9, 13), (2, 6, 10, 14), (3, 7, 11, 15),
    (0, 5, 10, 15), (1, 6, 11, 12), (2, 7, 8, 13), (3, 4, 9, 14)].foldl quarter s

def rounds : Nat := 12

/-- The words every block starts from. -/
def constants : List UInt32 := [0x61707865, 0x3320646E, 0x79622D32, 0x6B206574]

/-- The sixteen words of one block. -/
def block (key : List UInt32) (counter : Nat) : List UInt32 :=
  let position : List UInt32 := [UInt32.ofNat counter, UInt32.ofNat (counter >>> 32), 0, 0]
  let start := constants ++ key ++ position
  let mixed := (List.range (rounds / 2)).foldl (fun s _ => doubleRound s) start.toArray
  List.zipWith (· + ·) mixed.toList start

/-- The first `16 * blocks` words. -/
def words (key : List UInt32) (blocks : Nat) : List UInt32 :=
  (List.range blocks).flatMap (block key)

end VoxelServer.ChaCha
