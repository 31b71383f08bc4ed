import VoxelServer.Bytes

/-!
# The MD5 digest

Names of players without an account are turned into identities by this digest.

* `Md5.digest`: the sixteen bytes.
-/

namespace VoxelServer.Md5

/-- The left rotations of the sixteen steps of each round, which repeat after four. -/
def shifts : List (List UInt32) :=
  [[7, 12, 17, 22], [5, 9, 14, 20], [4, 11, 16, 23], [6, 10, 15, 21]]

/-- The integer part of `2 ^ 32` times the sine of the step number, without its sign. -/
def constants : Array UInt32 := #[
  0xD76AA478, 0xE8C7B756, 0x242070DB, 0xC1BDCEEE, 0xF57C0FAF, 0x4787C62A, 0xA8304613, 0xFD469501,
  0x698098D8, 0x8B44F7AF, 0xFFFF5BB1, 0x895CD7BE, 0x6B901122, 0xFD987193, 0xA679438E, 0x49B40821,
  0xF61E2562, 0xC040B340, 0x265E5A51, 0xE9B6C7AA, 0xD62F105D, 0x02441453, 0xD8A1E681, 0xE7D3FBC8,
  0x21E1CDE6, 0xC33707D6, 0xF4D50D87, 0x455A14ED, 0xA9E3E905, 0xFCEFA3F8, 0x676F02D9, 0x8D2A4C8A,
  0xFFFA3942, 0x8771F681, 0x6D9D6122, 0xFDE5380C, 0xA4BEEA44, 0x4BDECFA9, 0xF6BB4B60, 0xBEBFBC70,
  0x289B7EC6, 0xEAA127FA, 0xD4EF3085, 0x04881D05, 0xD9D4D039, 0xE6DB99E5, 0x1FA27CF8, 0xC4AC5665,
  0xF4292244, 0x432AFF97, 0xAB9423A7, 0xFC93A039, 0x655B59C3, 0x8F0CCC92, 0xFFEFF47D, 0x85845DD1,
  0x6FA87E4F, 0xFE2CE6E0, 0xA3014314, 0x4E0811A1, 0xF7537E82, 0xBD3AF235, 0x2AD7D2BB, 0xEB86D391]

structure State where
  a : UInt32
  b : UInt32
  c : UInt32
  d : UInt32

def initial : State := ⟨0x67452301, 0xEFCDAB89, 0x98BADCFE, 0x10325476⟩

def rotateLeft (x n : UInt32) : UInt32 := x <<< n ||| x >>> (32 - n)

/-- The mixing function of a round, and the word that a step takes. -/
def mix (s : State) (round i : Nat) : UInt32 × Nat :=
  match round with
  | 0 => ((s.b &&& s.c) ||| (~~~s.b &&& s.d), i)
  | 1 => ((s.d &&& s.b) ||| (~~~s.d &&& s.c), (5 * i + 1) % 16)
  | 2 => (s.b ^^^ s.c ^^^ s.d, (3 * i + 5) % 16)
  | _ => (s.c ^^^ (s.b ||| ~~~s.d), 7 * i % 16)

def step (words : Array UInt32) (s : State) (i : Nat) : State :=
  let round := i / 16
  let (f, word) := mix s round i
  let sum := f + s.a + constants.getD i 0 + words.getD word 0
  let shift := ((shifts.getD round []).getD (i % 4) 0)
  ⟨s.d, s.b + rotateLeft sum shift, s.b, s.c⟩

/-- The state after one block of 64 bytes. -/
def block (s : State) (bytes : Bytes) : State :=
  let words := ((List.range 16).map fun i =>
    UInt32.ofNat (Bytes.toNatLE ((bytes.drop (4 * i)).take 4))).toArray
  let t := (List.range 64).foldl (step words) s
  ⟨s.a + t.a, s.b + t.b, s.c + t.c, s.d + t.d⟩

/-- The message, a one bit, zeros up to eight bytes before a block's end, and its length in
bits. -/
def pad (message : Bytes) : Bytes :=
  let zeros := (119 - message.length % 64) % 64
  message ++ 0x80 :: List.replicate zeros 0 ++ Bytes.ofNatLE 8 (8 * message.length)

def blocks (s : State) : (count : Nat) → Bytes → State
  | 0, _ => s
  | count + 1, bytes => blocks (block s (bytes.take 64)) count (bytes.drop 64)

def digest (message : Bytes) : Bytes :=
  let padded := pad message
  let s := blocks initial (padded.length / 64) padded
  [s.a, s.b, s.c, s.d].flatMap fun word => Bytes.ofNatLE 4 word.toNat

end VoxelServer.Md5
