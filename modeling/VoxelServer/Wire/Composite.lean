import VoxelServer.Vec
import VoxelServer.Wire.Number

/-!
# Composite values on the wire

Components follow each other without anything between them. Products of products are the tuples
of any length.
-/

namespace VoxelServer

variable {α β : Type} [Wire α] [Wire β]

instance : Wire (α × β) where
  encode p := Wire.encode p.1 ++ Wire.encode p.2
  decode := do
    let a ← Wire.decode
    let b ← Wire.decode
    return (a, b)

/-- A flag, then the value if the flag is set. -/
instance : Wire (Option α) where
  encode
    | none => Wire.encode false
    | some a => Wire.encode true ++ Wire.encode a
  decode := do
    let isPresent : Bool ← Wire.decode
    if isPresent then return some (← Wire.decode) else return none

instance : Wire (Vec3 α) where
  encode v := Wire.encode v.x ++ Wire.encode v.y ++ Wire.encode v.z
  decode := do
    let x ← Wire.decode
    let y ← Wire.decode
    let z ← Wire.decode
    return ⟨x, y, z⟩

end VoxelServer
