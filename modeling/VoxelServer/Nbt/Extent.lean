import VoxelServer.Nbt.Value
import VoxelServer.Wire.Number

/-!
# How far a tag tree reaches

Tag trees arrive without a length, so the bytes of one are found by walking its structure before
anything is built from it. Counts come from the peer: a walk takes them at their word only as
long as there are bytes left, and nesting has a limit.

* `Nbt.skip`: passes over the payload of a tag.
-/

namespace VoxelServer.Nbt

/-- How many payloads may be open around another one. -/
def maxDepth : Nat := 512

/-- A byte string behind its 16-bit length. -/
def takeName : Decoder Bytes := do
  let length : UInt16 ← Wire.decode
  take length.toNat

/-- An array of elements of the given width behind their 32-bit count. -/
def takeArray (width : Nat) : Decoder Bytes := do
  let count : Int32 ← Wire.decode
  if count < 0 then throw (.negativeLength count.toInt)
  else take (count.toInt.toNat * width)

/-- Runs a decoder `count` times. -/
def skipTimes (skip : Decoder Unit) : (count : Nat) → Decoder Unit
  | 0 => return ()
  | count + 1 => do
    skip
    skipTimes skip count

/-- Passes over named entries up to the zero tag. Every entry takes a byte at least, so as many
rounds as the input has bytes are enough, and `input` is counted down instead of a number. -/
def skipEntries (skip : UInt8 → Decoder Unit) : (input : Bytes) → Decoder Unit
  | [] => do
    let _ ← take 1
  | _ :: rounds => do
    let tag : UInt8 ← Wire.decode
    if tag == 0 then return ()
    else
      let _ ← takeName
      skip tag
      skipEntries skip rounds

/-- Passes over the payload of a tag with at most `left` payloads nested in each other. -/
def skipWithin : (left : Nat) → (tag : UInt8) → Decoder Unit
  | 0, _ => throw (.invalid .tooDeeplyNested)
  | left + 1, tag =>
    match tag with
    | 1 => discard (take 1)
    | 2 => discard (take 2)
    | 3 | 5 => discard (take 4)
    | 4 | 6 => discard (take 8)
    | 7 => discard (takeArray 1)
    | 8 => discard takeName
    | 9 => do
      let inner : UInt8 ← Wire.decode
      let count : Int32 ← Wire.decode
      skipTimes (skipWithin left inner) count.toInt.toNat
    | 10 => fun input => skipEntries (skipWithin left) input input
    | 11 => discard (takeArray 4)
    | 12 => discard (takeArray 8)
    | _ => throw (.invalidValue "nbt tag" tag.toNat)

/-- Passes over the payload of a tag that has `depth` payloads open around it. -/
def skip (tag : UInt8) (depth : Nat) : Decoder Unit := skipWithin (maxDepth + 1 - depth) tag

end VoxelServer.Nbt
