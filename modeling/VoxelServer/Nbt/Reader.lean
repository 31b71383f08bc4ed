import VoxelServer.Nbt.Extent
import VoxelServer.Text.ModifiedUtf8

/-!
# Reading tag trees

The values inside a stretch of bytes that `Nbt.skip` has measured. Whatever is wrong here is one
error: names and strings that are not text, lists of a negative length or of an unknown tag.

* `Nbt.decodeRoot`: an optional compound; a lone zero tag stands for none.
-/

namespace VoxelServer.Nbt

/-- A name or string in modified UTF-8. -/
def readText : Decoder String := do
  match ModifiedUtf8.decode? (← takeName) with
  | some text => return text
  | none => throw .malformedNbt

/-- The elements of an array, each a word of its own. -/
def readArray {α : Type} [Wire α] : (count : Nat) → Decoder (List α)
  | 0 => return []
  | count + 1 => do
    let a ← Wire.decode
    let as ← readArray count
    return a :: as

/-- A count that may not be negative. -/
def readCount : Decoder Nat := do
  let count : Int32 ← Wire.decode
  if count < 0 then throw .malformedNbt else return count.toInt.toNat

def readTimes (read : Decoder Nbt) : (count : Nat) → Decoder (List Nbt)
  | 0 => return []
  | count + 1 => do
    let value ← read
    let values ← readTimes read count
    return value :: values

/-- The entries with a new one, which replaces the one of the same name. -/
def insertEntry (entries : List (String × Nbt)) (name : String) (value : Nbt) :
    List (String × Nbt) :=
  (name, value) :: entries.filter (·.1 != name)

/-- Named entries up to the zero tag, the last of several with one name. `input` bounds the rounds,
and `entries` are those read so far, the latest first. -/
def readEntries (read : UInt8 → Decoder Nbt) :
    (input : Bytes) → (entries : List (String × Nbt)) → Decoder (List (String × Nbt))
  | [], _ => throw .malformedNbt
  | _ :: rounds, entries => do
    let tag : UInt8 ← Wire.decode
    if tag == 0 then return entries.reverse
    else
      let name ← readText
      let value ← read tag
      readEntries read rounds (insertEntry entries name value)

/-- The value announced by a tag, with at most `left` values nested in each other. -/
def readWithin : (left : Nat) → (tag : UInt8) → Decoder Nbt
  | 0, _ => throw .malformedNbt
  | left + 1, tag =>
    match tag with
    | 1 => byte <$> Wire.decode
    | 2 => short <$> Wire.decode
    | 3 => int <$> Wire.decode
    | 4 => long <$> Wire.decode
    | 5 => float <$> Wire.decode
    | 6 => double <$> Wire.decode
    | 7 => do return byteArray (← readArray (← readCount))
    | 8 => string <$> readText
    | 9 => do
      let inner : UInt8 ← Wire.decode
      let count ← readCount
      if inner == 0 || isKnownTag inner then return list (← readTimes (readWithin left inner) count)
      else throw .malformedNbt
    | 10 => fun input => do
      let (entries, rest) ← readEntries (readWithin left) input [] input
      return (compound entries, rest)
    | 11 => do return intArray (← readArray (← readCount))
    | 12 => do return longArray (← readArray (← readCount))
    | _ => throw .malformedNbt

/-- The compound in bytes that were measured. Whatever is wrong with it is one error. -/
def readRoot (payload : Bytes) : Decoder Nbt :=
  match readWithin (maxDepth + 1) 10 payload with
  | .ok (value, _) => return value
  | .error _ => throw .malformedNbt

/-- An optional compound with a name, which nobody reads. The bytes are measured first, so that an
input that ends too early is told from one that is malformed. -/
def decodeRoot : Decoder (Option Nbt) := do
  let tag : UInt8 ← Wire.decode
  if tag == 0 then return none
  else if tag == 10 then
    let _ ← takeName
    let payload ← (skip 10 0).measure
    return some (← readRoot payload)
  else throw (.invalidValue "root nbt tag" tag.toNat)

end VoxelServer.Nbt
