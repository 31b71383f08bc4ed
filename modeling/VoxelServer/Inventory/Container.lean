import VoxelServer.Inventory.Transaction

/-!
# Containers

The slots of one window, numbered the way a client numbers them. Window 0 is the player's
inventory: crafting and armor, the main inventory, the hotbar and the off hand. Any other window
has slots of its own first, and the player's main inventory and hotbar after them.

* `Container.get`, `Container.set?`: what a slot holds.
* `Container.shiftTargets`: where a shift click moves items to.
* `Container.offer`: how a stack is spread over slots.
-/

namespace VoxelServer

structure Container where
  windowId : UInt8
  slots : List Slot
  /-- How many slots are the window's own. The others show the player's inventory. -/
  own : Nat
  deriving Repr, Inhabited

namespace Container

/-! ## Layout of the player's inventory -/

/-- Crafting output, crafting grid and armor. -/
def upperSlots : List Nat := List.range' 0 9

def mainSlots : List Nat := List.range' 9 27

def hotbarSlots : List Nat := List.range' 36 9

/-- The slots that other windows show too. -/
def sharedSlots : List Nat := List.range' 9 36

def offHandSlot : Nat := 45

def playerSize : Nat := 46

/-- The player's inventory, empty. -/
def player : Container := ⟨0, List.replicate playerSize none, playerSize⟩

/-- What the shared slots of the player's inventory hold. -/
def shared (player : Container) : List Slot := (player.slots.drop 9).take 36

/-- A window with `size` empty slots of its own. -/
def overPlayer (windowId : UInt8) (size : Nat) (player : Container) : Container :=
  ⟨windowId, List.replicate size none ++ player.shared, size⟩

/-- The player's inventory with the shared slots as a window has left them. -/
def takeBack (player window : Container) : Container :=
  { player with
    slots := player.slots.take 9 ++ window.slots.drop window.own ++ player.slots.drop offHandSlot }

/-! ## Slots -/

def size (c : Container) : Nat := c.slots.length

def get (c : Container) (slot : Nat) : Slot := c.slots[slot]?.join

/-- The container after a slot has been filled or emptied, if it has that slot. -/
def set? (c : Container) (slot : Nat) (item : Slot) : Option Container :=
  if slot < c.size then some { c with slots := c.slots.set slot item.nonempty } else none

/-- A slot number from the wire, if the container has that slot. -/
def index? (c : Container) (slot : Int16) : Option Nat :=
  if 0 ≤ slot.toInt && slot.toInt < c.size then some slot.toInt.toNat else none

/-- The slot that a number key stands for, counted from 0. -/
def hotbar? (c : Container) (key : Nat) : Option Nat :=
  if key ≥ hotbarSlots.length then none
  else if c.windowId == 0 then some (36 + key)
  else some (c.own + mainSlots.length + key)

/-- The numbers of all slots, in order. -/
def indices (c : Container) : List Nat := List.range c.size

/-- The slots that hold something, and what. -/
def occupied (c : Container) : List (Nat × ItemStack) :=
  c.indices.filterMap fun slot => (c.get slot).map (slot, ·)

/-- The slots a shift click on `slot` moves items into, in the order in which they are tried. -/
def shiftTargets (c : Container) (slot : Nat) : List Nat :=
  if c.windowId == 0 then
    if slot ∈ mainSlots then hotbarSlots
    else if slot ∈ hotbarSlots then mainSlots
    else if slot ∈ upperSlots || slot == offHandSlot then sharedSlots
    else []
  else if slot < c.own then (List.range' c.own (c.size - c.own)).reverse
  else List.range c.own

/-! ## Moving stacks -/

/-- How many more items fit on top of a stack that can take some of them. -/
def topUpRoom? (c : Container) (item : ItemStack) (slot : Nat) : Option Int :=
  match c.slots[slot]? with
  | some (some current) =>
    if current.isSimilar item && current.size < ItemStack.maxCount then
      some (ItemStack.maxCount - current.size)
    else none
  | _ => none

/-- How many items fit into an empty slot. -/
def emptyRoom? (c : Container) (slot : Nat) : Option Int :=
  match c.slots[slot]? with
  | some none => some ItemStack.maxCount
  | _ => none

/-- Puts up to `left` items into those of the targets that have room, each filled before the
next. Also says how many are left. -/
def fill (c : Container) (item : ItemStack) (room? : Nat → Option Int) :
    (targets : List Nat) → (left : Int) → List SlotTransaction × Int
  | [], left => ([], left)
  | slot :: targets, left =>
    if left ≤ 0 then ([], left)
    else match room? slot with
      | none => fill c item room? targets left
      | some room =>
        let placed := min left room
        let found := c.get slot
        let stack := (found.getD item).withSize (found.size + placed)
        let (transactions, left) := fill c item room? targets (left - placed)
        (⟨slot, found, some stack⟩ :: transactions, left)

/-- Spreads a stack over the targets, similar stacks first and empty slots after them. Also gives
what does not fit. -/
def offer (c : Container) (targets : List Nat) (item : ItemStack) :
    List SlotTransaction × Slot :=
  let (topUps, left) := c.fill item (c.topUpRoom? item) targets item.size
  let (fills, left) := c.fill item c.emptyRoom? targets left
  (topUps ++ fills, item.ofCount? left)

/-- Takes items for a stack that has `count` of them out of the given slots, each emptied before
the next, until the stack is full. Also says how many the stack has then. The room on a stack of −64
or fewer would be too large for a byte. -/
def drain (c : Container) (isSource : ItemStack → Bool) :
    (slots : List Nat) → (count : Int) → List SlotTransaction × Int
  | [], count => ([], count)
  | slot :: slots, count =>
    if count ≥ ItemStack.maxCount then ([], count)
    else match c.get slot with
      | none => drain c isSource slots count
      | some item =>
        if isSource item then
          let taken := min item.size (ItemStack.maxCount - count)
          let (transactions, count) := drain c isSource slots (count + taken)
          (⟨slot, some item, item.ofCount? (item.size - taken)⟩ :: transactions, count)
        else drain c isSource slots count

/-- Gathers items similar to a stack from all slots, partial stacks first. -/
def gather (c : Container) (stack : ItemStack) : List SlotTransaction × Int :=
  let isPartial (item : ItemStack) := item.size < ItemStack.maxCount
  let (partials, count) :=
    c.drain (fun item => item.isSimilar stack && isPartial item) c.indices stack.size
  let (wholes, count) :=
    c.drain (fun item => item.isSimilar stack && !isPartial item) c.indices count
  (partials ++ wholes, count)

/-- Makes the replacements of some transactions, one after the other. Transactions for slots the
container lacks are left out; the second part lists the others. -/
def store (c : Container) : List SlotTransaction → Container × List SlotTransaction
  | [] => (c, [])
  | t :: transactions =>
    match c.set? t.slot t.after with
    | none => store c transactions
    | some c =>
      let (c, stored) := store c transactions
      (c, t :: stored)

end Container

end VoxelServer
