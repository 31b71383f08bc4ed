import VoxelServer.Nbt.Value

/-!
# Item stacks

A number of items of one kind, as they lie in a slot or hang from the cursor.

* `ItemStack`: the type.
* `ItemStack.isSimilar`: whether two stacks hold the same item.
* `ItemStack.ofCount?`: a stack of another size, or nothing.
-/

namespace VoxelServer

structure ItemStack where
  id : Int16
  count : Int8
  damage : Int16
  nbt : Option Nbt
  deriving Repr, Inhabited

namespace ItemStack

/-- The most items one slot is filled up to. -/
def maxCount : Int := 64

/-- The number of items. -/
def size (item : ItemStack) : Int := item.count.toInt

/-- The same item, `n` times. -/
def withSize (item : ItemStack) (n : Int) : ItemStack := { item with count := Int8.ofInt n }

/-- The same item `n` times, or nothing when that leaves none. -/
def ofCount? (item : ItemStack) (n : Int) : Option ItemStack :=
  if 0 < n then some (item.withSize n) else none

/-- Two optional trees with the same content. -/
def sameNbt : Option Nbt → Option Nbt → Bool
  | none, none => true
  | some a, some b => a.same b
  | _, _ => false

/-- The same item, whatever the quantity. -/
def isSimilar (a b : ItemStack) : Bool :=
  a.id == b.id && a.damage == b.damage && sameNbt a.nbt b.nbt

end ItemStack

/-- What a slot holds. -/
abbrev Slot := Option ItemStack

namespace Slot

/-- The number of items in a slot. -/
def size : Slot → Int
  | none => 0
  | some item => item.size

/-- A stack without items counts as none. -/
def nonempty : Slot → Slot
  | none => none
  | some item => if 0 < item.size then some item else none

end Slot

end VoxelServer
