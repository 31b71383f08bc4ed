import VoxelServer.Zlib.Adler
import VoxelServer.Zlib.PrefixCode

/-!
# Decompression

A compressed stream is a two-byte header, blocks of literal bytes and of references to bytes that
were written before, and a checksum.

* `Zlib.inflate?`: the content, or its first `limit` bytes if there is more.

What follows the stream is ignored. Once the limit is reached nothing more of it is looked at, so
that a short input cannot make a long output.
-/

namespace VoxelServer.Zlib

/-- The output of a decompressor: bytes so far, and how many more may follow. -/
structure Output where
  bytes : Array UInt8
  room : Nat

namespace Output

def isFull (out : Output) : Bool := out.room == 0

def push (out : Output) (b : UInt8) : Output := ⟨out.bytes.push b, out.room - 1⟩

/-- Repeats `length` bytes from `distance` bytes back, which may run into the bytes being
written. -/
def copy (distance : Nat) : (length : Nat) → Output → Output
  | 0, out => out
  | length + 1, out =>
    if out.isFull then out
    else copy distance length (out.push (out.bytes.getD (out.bytes.size - distance) 0))

def append (out : Output) (bs : Bytes) : Output :=
  let front := bs.take out.room
  ⟨out.bytes ++ front.toArray, out.room - front.length⟩

end Output

/-- Least value and number of extra bits of the length symbols, from symbol 257 on. -/
def lengthCodes : List (Nat × Nat) :=
  [(3, 0), (4, 0), (5, 0), (6, 0), (7, 0), (8, 0), (9, 0), (10, 0), (11, 1), (13, 1), (15, 1),
    (17, 1), (19, 2), (23, 2), (27, 2), (31, 2), (35, 3), (43, 3), (51, 3), (59, 3), (67, 4),
    (83, 4), (99, 4), (115, 4), (131, 5), (163, 5), (195, 5), (227, 5), (258, 0)]

/-- Least value and number of extra bits of the distance symbols. -/
def distanceCodes : List (Nat × Nat) :=
  [(1, 0), (2, 0), (3, 0), (4, 0), (5, 1), (7, 1), (9, 2), (13, 2), (17, 3), (25, 3), (33, 4),
    (49, 4), (65, 5), (97, 5), (129, 6), (193, 6), (257, 7), (385, 7), (513, 8), (769, 8),
    (1025, 9), (1537, 9), (2049, 10), (3073, 10), (4097, 11), (6145, 11), (8193, 12),
    (12289, 12), (16385, 13), (24577, 13)]

/-- The value a length or distance symbol stands for, with the extra bits behind it. -/
def readExtended (codes : List (Nat × Nat)) (symbol : Nat) : BitReader Nat :=
  match codes[symbol]? with
  | some (least, extra) => do return least + (← BitStream.bits extra)
  | none => failure

/-- Decodes one block's symbols up to its end or until the output is full. Every round writes a
byte, so `rounds` need only exceed the room. -/
def readSymbols (literals distances : PrefixCode) : (rounds : Nat) → Output → BitReader Output
  | 0, out => return out
  | rounds + 1, out =>
    if out.isFull then return out
    else do
      let symbol ← literals.read
      if symbol < 256 then readSymbols literals distances rounds (out.push (UInt8.ofNat symbol))
      else if symbol == 256 then return out
      else
        let length ← readExtended lengthCodes (symbol - 257)
        let distance ← readExtended distanceCodes (← distances.read)
        if distance > out.bytes.size then failure
        else readSymbols literals distances rounds (out.copy distance length)

/-- The lengths of the words in a block of the fixed code. -/
def fixedLengths : List Nat :=
  List.replicate 144 8 ++ List.replicate 112 9 ++ List.replicate 24 7 ++ List.replicate 8 8

/-- The order in which the lengths of the code for code lengths are given. -/
def lengthOrder : List Nat :=
  [16, 17, 18, 0, 8, 7, 9, 6, 10, 5, 11, 4, 12, 3, 13, 2, 14, 1, 15]

/-- The next length, or a run of lengths: of the last one, or of zeros. -/
def readRun (code : PrefixCode) (last : Option Nat) : BitReader (List Nat) := do
  let symbol ← code.read
  if symbol < 16 then return [symbol]
  else if symbol == 16 then
    match last with
    | some l => return List.replicate (3 + (← BitStream.bits 2)) l
    | none => failure
  else if symbol == 17 then return List.replicate (3 + (← BitStream.bits 3)) 0
  else return List.replicate (11 + (← BitStream.bits 7)) 0

/-- `count` lengths in the code for lengths. The last run must not go past the count. -/
def readLengths (code : PrefixCode) (count : Nat) : (rounds : Nat) → List Nat →
    BitReader (List Nat)
  | 0, lengths => if lengths.length == count then return lengths else failure
  | rounds + 1, lengths =>
    if lengths.length == count then return lengths
    else if lengths.length > count then failure
    else do
      let run ← readRun code lengths.getLast?
      readLengths code count rounds (lengths ++ run)

def readTimes : (count : Nat) → BitReader Nat → BitReader (List Nat)
  | 0, _ => return []
  | count + 1, read => do
    let a ← read
    let as ← readTimes count read
    return a :: as

/-- The two codes at the head of a block that brings its own. -/
def readCodes : BitReader (PrefixCode × PrefixCode) := do
  let literalCount := (← BitStream.bits 5) + 257
  let distanceCount := (← BitStream.bits 5) + 1
  let lengthCount := (← BitStream.bits 4) + 4
  if literalCount > 286 || distanceCount > 30 then failure
  let given ← readTimes lengthCount (BitStream.bits 3)
  let lengthLengths := (List.range 19).map fun symbol =>
    ((lengthOrder.zip given).lookup symbol).getD 0
  let some code := PrefixCode.ofLengths? false lengthLengths | failure
  let total := literalCount + distanceCount
  let lengths ← readLengths code total total []
  let some literals := PrefixCode.ofLengths? true (lengths.take literalCount) | failure
  let some distances := PrefixCode.ofLengths? true (lengths.drop literalCount) | failure
  return (literals, distances)

/-- A block of plain bytes behind their number and its complement. -/
def readStored (out : Output) : BitReader Output := do
  BitStream.align
  let length := (← BitStream.takeBytes 2).toNatLE
  let complement := (← BitStream.takeBytes 2).toNatLE
  if length + complement != 65535 then failure
  return out.append (← BitStream.takeBytes (min length out.room))

/-- The content of one block. -/
def readBlock (out : Output) : BitReader Output := do
  match ← BitStream.bits 2 with
  | 0 => readStored out
  | 1 =>
    let some literals := PrefixCode.ofLengths? true fixedLengths | failure
    let some distances := PrefixCode.ofLengths? true (List.replicate 32 5) | failure
    readSymbols literals distances (out.room + 1) out
  | 2 =>
    let (literals, distances) ← readCodes
    readSymbols literals distances (out.room + 1) out
  | _ => failure

/-- Blocks up to the last one or until the output is full. A block takes at least three bits, so
`rounds` need only exceed their number. -/
def readBlocks : (rounds : Nat) → Output → BitReader Output
  | 0, _ => failure
  | rounds + 1, out => do
    let isLast := (← BitStream.bit) == 1
    let out ← readBlock out
    if out.isFull || isLast then return out else readBlocks rounds out

/-- Whether these two bytes open a stream: the method, a window of at most 32 KiB, no preset
dictionary, and a check of their own. -/
def isHeader (method flags : UInt8) : Bool :=
  method.toNat % 16 == 8 && method.toNat / 16 ≤ 7 && flags.toNat / 32 % 2 == 0 &&
    (method.toNat * 256 + flags.toNat) % 31 == 0

/-- The content of a stream, or its first `limit` bytes if it has more. -/
def inflate? (limit : Nat) (data : Bytes) : Option Bytes :=
  match data with
  | method :: flags :: body =>
    if isHeader method flags then do
      let (out, rest) ← readBlocks (3 * body.length) ⟨#[], limit⟩ (BitStream.ofBytes body)
      if out.isFull then return out.bytes.toList
      else
        let (sum, _) ← (do BitStream.align; BitStream.takeBytes 4 : BitReader Bytes) rest
        if sum.toNatBE == Adler.checksum out.bytes.toList then return out.bytes.toList else none
    else none
  | _ => none

end VoxelServer.Zlib
