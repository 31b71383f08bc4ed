import VoxelServer.Inventory.Transaction

/-!
# Inventory events

What a player is about to do to their inventory. Listeners may change the transactions, or cancel
the event.

* `ClickKind`, `ClickEvent`: a click in a window.
* `CreativeKind`, `CreativeEvent`: an item taken from the creative mode's unlimited supply.
-/

namespace VoxelServer

inductive ClickKind
  | primary
  | secondary
  | shiftPrimary
  | shiftSecondary
  /-- A key that stands for a slot of the hotbar, counted from 0. -/
  | numberPress (key : Nat)
  | middle
  | dropOutsidePrimary
  | dropOutsideSecondary
  | dropSingle
  | dropFull
  | dragPrimary
  | dragSecondary
  | double
  deriving DecidableEq, Repr, Inhabited

def ClickKind.name : ClickKind → String
  | primary => "Primary"
  | secondary => "Secondary"
  | shiftPrimary => "ShiftPrimary"
  | shiftSecondary => "ShiftSecondary"
  | numberPress key => "NumberPress(" ++ toString key ++ ")"
  | middle => "Middle"
  | dropOutsidePrimary => "DropOutsidePrimary"
  | dropOutsideSecondary => "DropOutsideSecondary"
  | dropSingle => "DropSingle"
  | dropFull => "DropFull"
  | dragPrimary => "DragPrimary"
  | dragSecondary => "DragSecondary"
  | double => "Double"

structure ClickEvent where
  windowId : UInt8
  kind : ClickKind
  cursor : Transaction
  slots : List SlotTransaction
  cancelled : Bool
  deriving Repr, Inhabited

inductive CreativeKind
  /-- A slot is set. -/
  | click
  /-- An item is thrown away. -/
  | drop
  deriving DecidableEq, Repr, Inhabited

def CreativeKind.name : CreativeKind → String
  | click => "Click"
  | drop => "Drop"

structure CreativeEvent where
  kind : CreativeKind
  item : Slot
  slots : List SlotTransaction
  cancelled : Bool
  deriving Repr, Inhabited

end VoxelServer
