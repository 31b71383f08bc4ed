/-!
# Cells of the world

* `BlockState`: what stands at a place in space, a type and four bits of its own.
* `BiomeType`: the climate of a place on the map.
-/

namespace VoxelServer

structure BlockState where
  raw : UInt16
  deriving DecidableEq, Repr

namespace BlockState

def air : BlockState := ⟨0⟩

instance : Inhabited BlockState := ⟨air⟩

/-- The type above the low four bits of `data`. -/
def ofParts (typeId : UInt16) (data : UInt8) : BlockState :=
  ⟨typeId <<< 4 ||| (data.toUInt16 &&& 0xF)⟩

def typeId (b : BlockState) : UInt16 := b.raw >>> 4

def data (b : BlockState) : UInt8 := (b.raw &&& 0xF).toUInt8

end BlockState

structure BiomeType where
  id : UInt8
  deriving DecidableEq, Repr

namespace BiomeType

def ocean : BiomeType := ⟨0⟩
def plains : BiomeType := ⟨1⟩
def desert : BiomeType := ⟨2⟩

instance : Inhabited BiomeType := ⟨ocean⟩

end BiomeType

end VoxelServer
