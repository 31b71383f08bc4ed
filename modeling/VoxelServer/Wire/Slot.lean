import VoxelServer.Item
import VoxelServer.Nbt.Reader
import VoxelServer.Nbt.Writer

/-!
# Slots on the wire

A negative id alone is an empty slot. Otherwise id, count and damage are followed by the item's
tag tree or a single zero.
-/

namespace VoxelServer

def encodeSlot : Slot → Bytes
  | none => Wire.encode (-1 : Int16)
  | some item =>
    Wire.encode item.id ++ Wire.encode item.count ++ Wire.encode item.damage ++
      match item.nbt with
      | some tree => tree.encodeRoot
      | none => [0]

def decodeSlot : Decoder Slot := do
  let id : Int16 ← Wire.decode
  if id < 0 then return none
  else
    let count : Int8 ← Wire.decode
    let damage : Int16 ← Wire.decode
    let nbt ← Nbt.decodeRoot
    return some { id, count, damage, nbt }

/-- The slot form, which differs from that of an optional value. -/
structure WireSlot where
  slot : Slot

instance : Wire WireSlot where
  encode s := encodeSlot s.slot
  decode := WireSlot.mk <$> decodeSlot

end VoxelServer
