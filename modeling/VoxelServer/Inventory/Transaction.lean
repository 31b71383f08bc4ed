import VoxelServer.Item

/-!
# Transactions

Changes to what holds items, before they happen. Whoever plans a change writes it down, and
whoever listens may write something else.
-/

namespace VoxelServer

/-- A change to the cursor. -/
structure Transaction where
  before : Slot
  after : Slot
  deriving Repr, Inhabited

/-- Leaves the cursor as it is. -/
def Transaction.unchanged (held : Slot) : Transaction := ⟨held, held⟩

/-- A change to a slot. -/
structure SlotTransaction where
  slot : Nat
  before : Slot
  after : Slot
  deriving Repr, Inhabited

end VoxelServer
