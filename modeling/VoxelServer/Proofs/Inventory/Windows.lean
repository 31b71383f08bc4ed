import Mathlib.Algebra.Group.Nat.Defs
import VoxelServer.Inventory.Basic
import VoxelServer.Proofs.Inventory.Transactions

/-!
# Windows over the player's inventory

A window shows the main inventory and the hotbar of the player behind its own slots, and hands
them back when it is gone:

* `Container.shownAt`: the number under which a window shows a slot of the player;
* `Container.overPlayer_put`: writing to such a slot of the window gives the window over the
  inventory with that slot written;
* `Container.SameOutside`: two inventories that differ in what windows show, and nowhere else;
* `Container.takeBack_overPlayer`: what a window hands back is the inventory it shows.
-/

namespace VoxelServer.Container

theorem mem_sharedSlots {slot : Nat} : slot ∈ sharedSlots ↔ 9 ≤ slot ∧ slot < 45 := by
  rw [sharedSlots, List.mem_range'_1]

/-- The number under which a window with `size` slots of its own shows a slot of the player. -/
def shownAt (size slot : Nat) : Nat := size + (slot - 9)

theorem shownAt_inj {size slot other : Nat} (hs : slot ∈ sharedSlots) (ho : other ∈ sharedSlots) :
    shownAt size slot = shownAt size other ↔ slot = other := by
  rw [mem_sharedSlots] at hs ho
  unfold shownAt
  omega

variable {c p : Container} {slot : Nat} {item : Slot}

/-! ## What a window shows -/

/-- The player's inventory is as large as it should be. -/
def Whole (c : Container) : Prop := c.size = playerSize

theorem Whole.length (whole : c.Whole) : c.slots.length = 46 := whole

theorem Whole.put (whole : c.Whole) (slot : Nat) (item : Slot) : (c.put slot item).Whole :=
  (c.size_put slot item).trans whole

theorem Whole.inside (whole : c.Whole) (shared : slot ∈ sharedSlots) : slot < c.size := by
  rw [mem_sharedSlots] at shared
  have size : c.size = 46 := whole
  omega

theorem length_shared (whole : c.Whole) : c.shared.length = 36 := by
  rw [shared, List.length_take, List.length_drop, whole.length]
  rfl

theorem size_overPlayer (whole : c.Whole) (windowId : UInt8) (size : Nat) :
    (c.overPlayer windowId size).size = size + 36 := by
  show (List.replicate size none ++ c.shared).length = _
  rw [List.length_append, List.length_replicate, length_shared whole]

theorem getElem?_shared (slot : Nat) :
    c.shared[slot]? = if slot < 36 then c.slots[9 + slot]? else none := by
  rw [shared, List.getElem?_take, List.getElem?_drop]

theorem get_overPlayer_shownAt (shared : slot ∈ sharedSlots) (windowId : UInt8) (size : Nat) :
    (c.overPlayer windowId size).get (shownAt size slot) = c.get slot := by
  rw [mem_sharedSlots] at shared
  have behind : 9 + (slot - 9) = slot := by omega
  show (List.replicate size none ++ c.shared)[size + (slot - 9)]?.join = c.slots[slot]?.join
  rw [List.getElem?_append_right (by simp), List.length_replicate, Nat.add_sub_cancel_left,
    getElem?_shared, if_pos (by omega), behind]

theorem get_overPlayer_own {size : Nat} (own : slot < size) (windowId : UInt8) :
    (c.overPlayer windowId size).get slot = none := by
  show (List.replicate size none ++ c.shared)[slot]?.join = none
  rw [List.getElem?_append_left (by simpa using own), List.getElem?_replicate, if_pos own]
  rfl

/-- A slot that is written shows in the window. -/
theorem shared_put (shared : slot ∈ sharedSlots) (item : Slot) :
    (c.put slot item).shared = c.shared.set (slot - 9) item := by
  rw [mem_sharedSlots] at shared
  show ((c.slots.set slot item).drop 9).take 36 = ((c.slots.drop 9).take 36).set (slot - 9) item
  rw [List.drop_set, if_neg (by omega), List.take_set]

theorem overPlayer_put (shared : slot ∈ sharedSlots) (item : Slot) (windowId : UInt8)
    (size : Nat) :
    (c.put slot item).overPlayer windowId size =
      (c.overPlayer windowId size).put (shownAt size slot) item := by
  unfold overPlayer put
  dsimp only
  rw [List.set_append_right _ _ (by simp [shownAt]), List.length_replicate, shownAt,
    Nat.add_sub_cancel_left]
  exact congrArg (Container.mk windowId · size) (congrArg _ (shared_put shared item))

/-! ## What a window hands back -/

/-- The two differ in nothing but the slots that windows show. -/
structure SameOutside (p c : Container) : Prop where
  windowId : p.windowId = c.windowId
  own : p.own = c.own
  upper : p.slots.take 9 = c.slots.take 9
  offHand : p.slots.drop offHandSlot = c.slots.drop offHandSlot

theorem SameOutside.refl (c : Container) : c.SameOutside c := ⟨rfl, rfl, rfl, rfl⟩

theorem SameOutside.put (same : p.SameOutside c) (shared : slot ∈ sharedSlots) (item : Slot) :
    p.SameOutside (c.put slot item) := by
  rw [mem_sharedSlots] at shared
  refine ⟨same.windowId, same.own, same.upper.trans ?_, same.offHand.trans ?_⟩
  · exact (List.take_set_of_le shared.1).symm
  · exact (List.drop_set_of_lt shared.2).symm

/-- Whoever takes a window back gets the inventory that the window shows. -/
theorem takeBack_overPlayer (same : p.SameOutside c) (windowId : UInt8) (size : Nat) :
    p.takeBack (c.overPlayer windowId size) = c := by
  have all : c.slots.take 9 ++ c.shared ++ c.slots.drop 45 = c.slots := by
    rw [shared, List.append_assoc, show c.slots.drop 45 = (c.slots.drop 9).drop 36 by
      rw [List.drop_drop], List.take_append_drop, List.take_append_drop]
  have shown : (c.overPlayer windowId size).slots.drop size = c.shared :=
    List.drop_left' List.length_replicate
  show { p with slots := p.slots.take 9 ++ _ ++ p.slots.drop offHandSlot } = c
  rw [same.upper, same.offHand, show (c.overPlayer windowId size).own = size from rfl, shown,
    show c.slots.drop offHandSlot = c.slots.drop 45 from rfl, all, same.windowId, same.own]

/-! ## Numbers from the wire -/

/-- A slot number of the player as a window with `size` slots of its own has it. Numbers of slots
that windows do not show stay as they are. -/
def shownNumber (size : Nat) (number : Int16) : Int16 :=
  if 9 ≤ number.toInt ∧ number.toInt < 45 then Int16.ofNat (shownAt size number.toInt.toNat)
  else number

/-- All slots of a window with `size` slots of its own have numbers on the wire. -/
def Numbered (size : Nat) : Prop := size + 36 ≤ 2 ^ 15

instance (size : Nat) : Decidable (Numbered size) := inferInstanceAs (Decidable (_ ≤ _))

theorem toInt_shownNumber {size : Nat} (numbered : Numbered size) {number : Int16}
    (shared : 9 ≤ number.toInt ∧ number.toInt < 45) :
    (shownNumber size number).toInt = shownAt size number.toInt.toNat := by
  unfold Numbered at numbered
  rw [shownNumber, if_pos shared, Int16.toInt_ofNat_of_lt]
  unfold shownAt
  omega

theorem index?_of_eq {number : Int16} (named : number.toInt = slot) (inside : slot < c.size) :
    c.index? number = some slot := by
  simp only [index?, named, Bool.and_eq_true, decide_eq_true_eq]
  rw [if_pos (by omega), Int.toNat_natCast]

theorem index?_of_neg {number : Int16} (negative : number.toInt < 0) :
    c.index? number = none := by
  simp only [index?, Bool.and_eq_true, decide_eq_true_eq]
  rw [if_neg (by omega)]

/-- A window has its slot where the player's inventory has one that windows show. -/
theorem index?_overPlayer (whole : c.Whole) {size : Nat} (numbered : Numbered size)
    {number : Int16} (shared : 9 ≤ number.toInt ∧ number.toInt < 45) (windowId : UInt8) :
    c.index? number = some number.toInt.toNat ∧
      (c.overPlayer windowId size).index? (shownNumber size number) =
        some (shownAt size number.toInt.toNat) := by
  have large : c.size = 46 := whole
  refine ⟨index?_of_eq (by omega) (by omega), index?_of_eq (toInt_shownNumber numbered shared) ?_⟩
  rw [size_overPlayer whole, shownAt]
  omega

/-- A number key stands for the same slot in a window. -/
theorem hotbar?_overPlayer (player : c.windowId = 0) {windowId : UInt8} (other : windowId ≠ 0)
    (size key : Nat) :
    (c.overPlayer windowId size).hotbar? key = (c.hotbar? key).map (shownAt size) ∧
      ∀ slot ∈ c.hotbar? key, slot ∈ sharedSlots := by
  unfold hotbar?
  split
  · exact ⟨rfl, by simp⟩
  · rename_i known
    have known : ¬ 9 ≤ key := known
    have window : (c.overPlayer windowId size).windowId = windowId := rfl
    rw [window, if_neg (by simpa using other), if_pos (beq_iff_eq.mpr player)]
    refine ⟨congrArg some ?_, fun slot found => ?_⟩
    · show size + 27 + key = size + (36 + key - 9)
      omega
    · obtain rfl := Option.mem_some_iff.mp found
      rw [mem_sharedSlots]
      omega

end VoxelServer.Container
