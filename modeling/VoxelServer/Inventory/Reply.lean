import VoxelServer.Inventory.Click

/-!
# Answers to clicks

A click becomes an event. If the listeners leave it standing its transactions are made; if they
cancel it the client is told to put everything back.

* `Inventory.click`: a click in a window.
* `Inventory.creative`: an item from the creative mode's supply.
* Both give an `Outcome`.
-/

namespace VoxelServer

/-- What a client has to hear after a click. -/
inductive Reply
  | setSlot (m : SetSlot)
  | confirm (m : ConfirmTransaction)
  deriving Repr

def Reply.message : Reply → Message
  | setSlot m => .setSlot m
  | confirm m => .confirmTransaction m

/-- Says what a slot holds. -/
def Reply.slot (windowId : Int8) (slot : Nat) (item : Slot) : Reply :=
  setSlot ⟨windowId, Int16.ofNat slot, item⟩

/-- Says what is on the cursor. -/
def Reply.cursor (item : Slot) : Reply := setSlot ⟨-1, -1, item⟩

/-- An inventory after a click. -/
structure Outcome (E : Type) where
  inventory : Inventory
  /-- The event, as the listeners have left it, if the click made one. -/
  event : Option E
  replies : List Reply

namespace Inventory

/-- Makes the transactions of an event, unless it is cancelled. The answer says what the cursor
and the slots hold now, and whether the click counts. -/
def finish (v : Inventory) (e : ClickEvent) (action : Int16) : Inventory × List Reply :=
  let windowId := e.windowId.toInt8
  let (v, slots) :=
    if e.cancelled then
      (v, e.slots.map fun t => Reply.slot windowId t.slot (v.current.get t.slot))
    else
      let (c, stored) := v.current.store e.slots
      let v := { v.withCurrent c with cursor := e.cursor.after }
      (v, stored.map fun t => Reply.slot windowId t.slot t.after)
  (v, .cursor v.cursor :: slots ++ [.confirm ⟨windowId, action, !e.cancelled⟩])

/-- A click in a window. One for a window that is not in front is ignored. -/
def click (v : Inventory) (post : ClickEvent → ClickEvent) (m : ClickWindow) (creative : Bool) :
    Except CodecError (Outcome ClickEvent) := do
  let windowId := v.current.windowId
  if m.windowId != windowId then return ⟨v, none, []⟩
  else
    match ← v.plan m creative with
    | (v, none) => return ⟨v, none, []⟩
    | (v, some plan) =>
      let { kind, cursor, slots } := plan
      let e := post { windowId, kind, cursor, slots, cancelled := false }
      let (v, replies) := v.finish e m.action
      return ⟨v, some e, replies⟩

/-- The event for an item from the creative mode's supply. A negative slot number throws the item
away. -/
def creativeEvent (v : Inventory) (m : CreativeInventoryAction) : Except CodecError CreativeEvent :=
  if m.slot < 0 then .ok { kind := .drop, item := m.item, slots := [], cancelled := false }
  else match v.player.index? m.slot with
    | none => .error (.invalidValue "creative slot" m.slot.toInt)
    | some slot => .ok
      { kind := .click
        item := m.item
        slots := [⟨slot, v.player.get slot, m.item⟩]
        cancelled := false }

/-- An item from the creative mode's supply, which goes straight to the player's inventory. -/
def creative (v : Inventory) (post : CreativeEvent → CreativeEvent) (m : CreativeInventoryAction) :
    Except CodecError (Outcome CreativeEvent) := do
  let e := post (← v.creativeEvent m)
  let reply (t : SlotTransaction) : Reply :=
    .slot 0 t.slot (if e.cancelled then v.player.get t.slot else t.after)
  let player := if e.cancelled then v.player else (v.player.store e.slots).1
  return ⟨{ v with player }, some e, e.slots.map reply⟩

end Inventory

end VoxelServer
