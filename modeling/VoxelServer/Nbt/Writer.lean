import VoxelServer.Nbt.Value
import VoxelServer.Text.ModifiedUtf8
import VoxelServer.Wire.Number

/-!
# Writing tag trees

* `Nbt.encodeRoot`: a compound as the root of a tree, under an empty name. Nothing else can be a
  root, and a single zero tag stands in its place.
-/

namespace VoxelServer.Nbt

/-- A text behind the 16-bit length of its bytes. -/
def writeText (text : String) : Bytes :=
  let bytes := ModifiedUtf8.encode text
  Bytes.ofNatBE 2 bytes.length ++ bytes

def writeArray {α : Type} [Wire α] (values : List α) : Bytes :=
  Bytes.ofNatBE 4 values.length ++ values.flatMap Wire.encode

/-- The tag of a list's elements, zero if it has none. -/
def elementTag : List Nbt → UInt8
  | [] => 0
  | value :: _ => value.tag

mutual

/-- The bytes behind a value's tag and name. -/
def writePayload : Nbt → Bytes
  | byte value => Wire.encode value
  | short value => Wire.encode value
  | int value => Wire.encode value
  | long value => Wire.encode value
  | float value => Wire.encode value
  | double value => Wire.encode value
  | byteArray values => writeArray values
  | string value => writeText value
  | list values => elementTag values :: Bytes.ofNatBE 4 values.length ++ writeElements values
  | compound entries => writeEntries entries
  | intArray values => writeArray values
  | longArray values => writeArray values

def writeElements : List Nbt → Bytes
  | [] => []
  | value :: values => writePayload value ++ writeElements values

/-- Each entry's tag, name and payload, then the zero tag. -/
def writeEntries : List (String × Nbt) → Bytes
  | [] => [0]
  | (name, value) :: entries =>
    value.tag :: writeText name ++ writePayload value ++ writeEntries entries

end

def encodeRoot : Nbt → Bytes
  | compound entries => 10 :: writeText "" ++ writeEntries entries
  | _ => [0]

end VoxelServer.Nbt
