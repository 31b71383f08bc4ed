import VoxelServer.Inventory.Basic
import VoxelServer.Inventory.Event
import VoxelServer.Message.Basic

/-!
# Dragging

A player who holds a button while moving over slots deals out what is on the cursor: in equal
shares with the primary button, one item each with the secondary one. The client reports the
start, each slot and the end as clicks of their own.

* `Inventory.dragClick`: what one of these clicks does.
-/

namespace VoxelServer

/-- What a click would do. -/
structure ClickPlan where
  kind : ClickKind
  cursor : Transaction
  slots : List SlotTransaction
  deriving Repr, Inhabited

/-- A part of a drag, as its button number tells. -/
inductive DragStep
  | start (button : MouseButton)
  | add (button : MouseButton)
  | finish (button : MouseButton)
  deriving DecidableEq, Repr

def DragStep.ofNumber? (n : Int8) : Option DragStep :=
  if n == 0 then some (start .primary)
  else if n == 1 then some (add .primary)
  else if n == 2 then some (finish .primary)
  else if n == 4 then some (start .secondary)
  else if n == 5 then some (add .secondary)
  else if n == 6 then some (finish .secondary)
  else none

namespace Drag

def kind (drag : Drag) : ClickKind :=
  match drag.button with
  | .primary => .dragPrimary
  | .secondary => .dragSecondary

/-- How many of `count` items each slot gets. -/
def share (drag : Drag) (count : Int) : Int :=
  match drag.button with
  | .primary => (count.toNat / drag.slots.length : Nat)
  | .secondary => 1

/-- The drag with one more slot, if that slot is free for the item and not yet part of it. -/
def addSlot (drag : Drag) (c : Container) (held : ItemStack) (slot : Int16) : Drag :=
  match c.index? slot with
  | none => drag
  | some index =>
    let fits := (c.get index).all (·.isSimilar held)
    if fits && !drag.slots.contains index then { drag with slots := drag.slots ++ [index] }
    else drag

end Drag

namespace Container

/-- Deals out `left` items over slots, up to `share` to each. Also says how many are left. -/
def deal (c : Container) (item : ItemStack) (share : Int) :
    (slots : List Nat) → (left : Int) → List SlotTransaction × Int
  | [], left => ([], left)
  | slot :: slots, left =>
    let found := c.get slot
    let placed := min (min share (ItemStack.maxCount - found.size)) left
    if placed ≤ 0 then deal c item share slots left
    else
      let (transactions, left) := deal c item share slots (left - placed)
      (⟨slot, found, some (item.withSize (found.size + placed))⟩ :: transactions, left)

end Container

namespace Inventory

/-- What the end of a drag does. -/
def finishDrag (v : Inventory) (drag : Drag) (held : ItemStack) : ClickPlan :=
  let (slots, left) := v.current.deal held (drag.share held.size) drag.slots held.size
  { kind := drag.kind, cursor := ⟨some held, held.ofCount? left⟩, slots }

/-- One click of a drag. A click out of order ends the drag without effect, and so does an empty
cursor. -/
def dragClick (v : Inventory) (m : ClickWindow) : Inventory × Option ClickPlan :=
  let stopped := { v with drag := none }
  match v.cursor with
  | none => (stopped, none)
  | some held =>
    match v.drag, DragStep.ofNumber? m.button with
    | none, some (.start button) => ({ v with drag := some ⟨button, []⟩ }, none)
    | some drag, some (.add button) =>
      if button = drag.button then
        ({ v with drag := some (drag.addSlot v.current held m.slot) }, none)
      else (stopped, none)
    | some drag, some (.finish button) =>
      if button = drag.button then (stopped, some (v.finishDrag drag held)) else (stopped, none)
    | _, _ => (stopped, none)

end Inventory

end VoxelServer
