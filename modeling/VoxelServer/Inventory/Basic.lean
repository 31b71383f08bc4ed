import VoxelServer.Inventory.Container

/-!
# Inventories

A player's inventory, the window that lies over it, and the item that hangs from the cursor. The
cursor keeps its item when windows open.

* `Inventory`: the type; `Inventory.current` is the container that clicks apply to.
* `Inventory.openWindow`, `Inventory.closeWindow`.
-/

namespace VoxelServer

/-- The two main buttons of a mouse. -/
inductive MouseButton
  | primary
  | secondary
  deriving DecidableEq, Repr, Inhabited

/-- The button with a number from the wire. -/
def MouseButton.ofNumber? (n : Int8) : Option MouseButton :=
  if n == 0 then some primary else if n == 1 then some secondary else none

/-- A drag across slots that is still going on. -/
structure Drag where
  button : MouseButton
  /-- The slots dragged over so far, each once. -/
  slots : List Nat
  deriving DecidableEq, Repr, Inhabited

structure Inventory where
  player : Container
  window : Option Container
  cursor : Slot
  drag : Option Drag
  deriving Repr, Inhabited

namespace Inventory

def empty : Inventory := ⟨.player, none, none, none⟩

/-- The container that clicks apply to. -/
def current (v : Inventory) : Container := v.window.getD v.player

def withCurrent (v : Inventory) (c : Container) : Inventory :=
  match v.window with
  | some _ => { v with window := some c }
  | none => { v with player := c }

/-- The player's inventory as it is once no window is open. -/
def uncovered (v : Inventory) : Container :=
  match v.window with
  | some window => v.player.takeBack window
  | none => v.player

/-- Opens a window, which closes the one that was open. -/
def openWindow (v : Inventory) (windowId : UInt8) (size : Nat) : Inventory :=
  let player := v.uncovered
  { v with player, window := some (player.overPlayer windowId size), drag := none }

/-- Closes the window in front and takes the item off the cursor. A window that is not in front
stays as it is. -/
def closeWindow (v : Inventory) (windowId : UInt8) : Slot × Inventory :=
  if v.current.windowId == windowId then
    (v.cursor, { player := v.uncovered, window := none, cursor := none, drag := none })
  else (none, v)

/-- A slot number from the wire, if the current container has that slot, and what it holds. -/
def slot? (v : Inventory) (slot : Int16) : Option (Nat × Slot) :=
  (v.current.index? slot).map fun index => (index, v.current.get index)

end Inventory

end VoxelServer
