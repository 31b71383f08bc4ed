import VoxelServer.Inventory.Drag
import VoxelServer.Wire.Error

/-!
# Clicks

What a click in a window would do, as a `ClickPlan`. A click that makes no sense has no plan.

* `Inventory.plan`: the plan of a click of any mode.
* One function for each mode, from `Inventory.plainClick` to `Inventory.doubleClick`.

The numbers in a plan are whole numbers, and become bytes again in the stacks of its replacements.
Stacks in slots have 1 to 127 items, and with at least one item on the cursor no number in a plan
leaves the range of a byte. A listener may leave fewer on the cursor. Arithmetic on bytes would then
wrap around where one item is taken from −128 (`MouseButton.exchange`, `Inventory.outsideClick`)
and where a cursor of −64 or fewer is filled up (`Inventory.doubleClick`).
-/

namespace VoxelServer

/-- The slot number of clicks outside the window. -/
def outsideSlot : Int16 := -999

/-- Cursor and slot after a plain click. The slot is missing if it stays as it is. -/
def MouseButton.exchange (button : MouseButton) : (held current : Slot) → Slot × Option Slot
  | none, none => (none, none)
  | none, some item =>
    match button with
    | primary => (some item, some none)
    | secondary =>
      -- half of it, in favor of the cursor
      let taken := item.size - item.size.tdiv 2
      (some (item.withSize taken), some (item.ofCount? (item.size - taken)))
  | some held, none =>
    let placed := match button with
      | primary => min held.size ItemStack.maxCount
      | secondary => 1
    (held.ofCount? (held.size - placed), some (some (held.withSize placed)))
  | some held, some item =>
    if held.isSimilar item then
      match button with
      | primary =>
        let placed := max (min held.size (ItemStack.maxCount - item.size)) 0
        (held.ofCount? (held.size - placed), some (some (item.withSize (item.size + placed))))
      | secondary =>
        if item.size ≥ ItemStack.maxCount then (some held, none)
        else (held.ofCount? (held.size - 1), some (some (item.withSize (item.size + 1))))
    else (some item, some (some held))

namespace Inventory

/-- Drops what is on the cursor, or one item of it. -/
def outsideClick (v : Inventory) (button : Int8) : Option ClickPlan := do
  match ← MouseButton.ofNumber? button with
  | .primary => return { kind := .dropOutsidePrimary, cursor := ⟨v.cursor, none⟩, slots := [] }
  | .secondary =>
    let left := v.cursor.bind fun held => held.ofCount? (held.size - 1)
    return { kind := .dropOutsideSecondary, cursor := ⟨v.cursor, left⟩, slots := [] }

/-- Picks up, puts down or swaps. -/
def plainClick (v : Inventory) (slot : Int16) (button : Int8) : Option ClickPlan := do
  let (index, held) ← v.slot? slot
  let button ← MouseButton.ofNumber? button
  let (cursor, replacement) := button.exchange v.cursor held
  let kind := match button with
    | .primary => .primary
    | .secondary => .secondary
  let slots := replacement.toList.map fun replacement => ⟨index, held, replacement⟩
  return { kind, cursor := ⟨v.cursor, cursor⟩, slots }

/-- Moves a stack to the other part of the window. -/
def shiftClick (v : Inventory) (slot : Int16) (button : Int8) : Option ClickPlan := do
  let kind := match ← MouseButton.ofNumber? button with
    | .primary => .shiftPrimary
    | .secondary => .shiftSecondary
  let (index, held) ← v.slot? slot
  let cursor := Transaction.unchanged v.cursor
  match held with
  | none => return { kind, cursor, slots := [] }
  | some item =>
    let c := v.current
    let (moved, left) := c.offer ((c.shiftTargets index).filter (· != index)) item
    let source := if left.size < item.size then [⟨index, some item, left⟩] else []
    return { kind, cursor, slots := moved ++ source }

/-- Swaps a slot with one of the hotbar, unless the cursor holds something. -/
def numberClick (v : Inventory) (slot : Int16) (button : Int8) : Option ClickPlan := do
  if button < 0 then none
  else
    let key := button.toInt.toNat
    let (index, held) ← v.slot? slot
    let hotbar ← v.current.hotbar? key
    let cursor := Transaction.unchanged v.cursor
    if v.cursor.isSome || hotbar == index then
      return { kind := .numberPress key, cursor, slots := [] }
    else
      let other := v.current.get hotbar
      let slots := [⟨index, held, other⟩, ⟨hotbar, other, held⟩]
      return { kind := .numberPress key, cursor, slots }

/-- Puts a full stack of a slot's item on the cursor, in creative mode only. -/
def middleClick (v : Inventory) (slot : Int16) (creative : Bool) : ClickPlan :=
  let copy := do
    let (_, held) ← v.slot? slot
    let item ← held
    return item.withSize ItemStack.maxCount
  let cursor := if creative then v.cursor <|> copy else v.cursor
  { kind := .middle, cursor := ⟨v.cursor, cursor⟩, slots := [] }

/-- Drops what is in a slot, or one item of it. -/
def dropClick (v : Inventory) (slot : Int16) (button : Int8) : Option ClickPlan := do
  let button ← MouseButton.ofNumber? button
  let kind := match button with
    | .primary => .dropSingle
    | .secondary => .dropFull
  let (index, held) ← v.slot? slot
  let left (item : ItemStack) : Slot := match button with
    | .primary => item.ofCount? (item.size - 1)
    | .secondary => none
  let slots := held.toList.map fun item => ⟨index, some item, left item⟩
  return { kind, cursor := .unchanged v.cursor, slots }

/-- Fills up the cursor with similar items. -/
def doubleClick (v : Inventory) (slot : Int16) (button : Int8) : Option ClickPlan := do
  if button != 0 then none
  else
    let _ ← v.slot? slot
    match v.cursor with
    | none => return { kind := .double, cursor := .unchanged v.cursor, slots := [] }
    | some held =>
      if held.size ≥ ItemStack.maxCount then
        return { kind := .double, cursor := .unchanged v.cursor, slots := [] }
      else
        let (slots, count) := v.current.gather held
        return { kind := .double, cursor := ⟨v.cursor, some (held.withSize count)⟩, slots }

/-- What a click does to the drag, and what it would do to the items. Any other click while a drag
is going on only ends the drag. -/
def plan (v : Inventory) (m : ClickWindow) (creative : Bool) :
    Except CodecError (Inventory × Option ClickPlan) :=
  if m.mode == 5 then .ok (v.dragClick m)
  else if v.drag.isSome then .ok ({ v with drag := none }, none)
  else if m.mode == 0 then
    .ok (v, if m.slot == outsideSlot then v.outsideClick m.button else v.plainClick m.slot m.button)
  else if m.mode == 1 then .ok (v, v.shiftClick m.slot m.button)
  else if m.mode == 2 then .ok (v, v.numberClick m.slot m.button)
  else if m.mode == 3 then .ok (v, v.middleClick m.slot creative)
  else if m.mode == 4 then
    .ok (v, if m.slot == outsideSlot then v.outsideClick m.button else v.dropClick m.slot m.button)
  else if m.mode == 6 then .ok (v, v.doubleClick m.slot m.button)
  else .error (.invalidValue "click mode" m.mode.toInt)

end Inventory

end VoxelServer
