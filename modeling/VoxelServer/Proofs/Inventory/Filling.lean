import VoxelServer.Proofs.Inventory.Resync
import VoxelServer.Proofs.Inventory.Turns

/-!
# Filling slots with a stack

A shift click spreads a stack over the other part of the window. It tries the slots with similar
stacks first and the empty ones after them, and goes on to the next slot only once one is full:

* `Container.offer_eq_pass`: spreading a stack is one pass over the slots that have room;
* `Container.get_store_spread`: what is in every slot once its transactions are made;
* `shift_click_fills_in_turn`: a shift click moves as much as fits.
-/

namespace VoxelServer

/-- Whether what is found is similar to a stack, and fewer than 64 items. -/
def ItemStack.isPartial (item found : ItemStack) : Bool :=
  found.isSimilar item && found.size < maxCount

namespace Container

variable {c : Container} {item : ItemStack} {slot : Nat} {slots : List Nat} {left : Int}

/-! ## Filling up -/

/-- How many more items fit into a slot. -/
def room (c : Container) (slot : Nat) : Int := ItemStack.maxCount - (c.get slot).size

/-- A slot with some more items, of the kind that is there or of a given one. -/
def grown (c : Container) (item : ItemStack) (slot : Nat) (n : Int) : Slot :=
  ((c.get slot).getD item).ofCount? ((c.get slot).size + n)

theorem grown_zero (solid : (c.get slot).Solid) : c.grown item slot 0 = c.get slot := by
  unfold grown
  cases held : c.get slot with
  | none => rfl
  | some found =>
    rw [held, Slot.solid_some] at solid
    rw [Option.getD_some, Slot.size_some, Int.add_zero, found.ofCount?_size solid]

theorem solid_grown {n : Int} (fits : n ≤ c.room slot) : (c.grown item slot n).Solid := by
  have most : c.room slot = 64 - (c.get slot).size := rfl
  exact Slot.solid_ofCount? _ (by omega)

/-- Filling up slots is a pass over those that have room. -/
theorem fill_eq_pass {room? : Nat → Option Int} (isOpen : Nat → Bool)
    (same : ∀ slot ∈ slots, room? slot = if isOpen slot then some (c.room slot) else none)
    (solid : ∀ slot, (c.get slot).Solid) (space : ∀ slot, isOpen slot = true → 0 < c.room slot)
    (left : Int) :
    c.fill item room? slots left = c.pass c.room (c.grown item) (slots.filter isOpen) left := by
  induction slots generalizing left with
  | nil => rfl
  | cons slot slots ih =>
    obtain ⟨here, others⟩ := List.forall_mem_cons.mp same
    by_cases done : left ≤ 0
    · rw [pass_of_le _ done]
      exact if_pos done
    · rw [fill, if_neg done, here]
      by_cases passed : isOpen slot = true
      · have nonneg := (solid slot).size_nonneg
        have space := space slot passed
        have after : c.grown item slot (min left (c.room slot)) =
            some (((c.get slot).getD item).withSize
              ((c.get slot).size + min left (c.room slot))) :=
          ItemStack.ofCount?_of_pos _ (by omega)
        rw [if_pos passed, List.filter_cons_of_pos passed, pass_cons _ _ (Int.not_le.mp done)]
        simp only [ih others, after]
      · rw [if_neg passed, List.filter_cons_of_neg passed]
        exact ih others left

/-! ## Spreading a stack -/

/-- Of some slots those that hold a similar stack of fewer than 64 items. -/
def partials (c : Container) (item : ItemStack) (slots : List Nat) : List Nat :=
  slots.filter fun slot => (c.get slot).any item.isPartial

/-- Of some slots the empty ones. -/
def vacancies (c : Container) (slots : List Nat) : List Nat :=
  slots.filter fun slot => (c.get slot).isNone

/-- Of some slots those that take items of a stack, in the order in which they get them. -/
def takers (c : Container) (item : ItemStack) (slots : List Nat) : List Nat :=
  c.partials item slots ++ c.vacancies slots

theorem room_of_partial (fits : (c.get slot).any item.isPartial) : 0 < c.room slot := by
  unfold room
  cases held : c.get slot with
  | none => decide
  | some found =>
    rw [held, Option.any_some, ItemStack.isPartial, Bool.and_eq_true, decide_eq_true_eq] at fits
    exact Int.sub_pos.mpr fits.2

theorem room_of_vacancy (empty : (c.get slot).isNone) : c.room slot = 64 := by
  rw [room, Option.isNone_iff_eq_none.mp empty]
  rfl

theorem topUpRoom?_eq (c : Container) (item : ItemStack) (slot : Nat) :
    c.topUpRoom? item slot =
      if (c.get slot).any item.isPartial then some (c.room slot) else none := by
  unfold topUpRoom? room get
  cases c.slots[slot]? with
  | none => rfl
  | some held =>
    cases held with
    | none => rfl
    | some found => rfl

theorem emptyRoom?_eq (inside : slot < c.size) :
    c.emptyRoom? slot = if (c.get slot).isNone then some (c.room slot) else none := by
  unfold emptyRoom? room
  rw [getElem?_slots inside]
  cases c.get slot with
  | none => rfl
  | some found => rfl

/-- Nobody is asked twice. -/
theorem nodup_takers (c : Container) (item : ItemStack) (distinct : slots.Nodup) :
    (c.takers item slots).Nodup := by
  refine List.nodup_append.mpr ⟨distinct.filter _, distinct.filter _, ?_⟩
  rintro slot partly _ empty rfl
  have held := (List.mem_filter.mp partly).2
  rw [Option.isNone_iff_eq_none.mp (List.mem_filter.mp empty).2] at held
  cases held

theorem of_mem_takers (mem : slot ∈ c.takers item slots) : slot ∈ slots ∧ 0 < c.room slot := by
  obtain mem | mem := List.mem_append.mp mem
  · obtain ⟨there, fits⟩ := List.mem_filter.mp mem
    exact ⟨there, room_of_partial fits⟩
  · obtain ⟨there, empty⟩ := List.mem_filter.mp mem
    exact ⟨there, room_of_vacancy empty ▸ by decide⟩

theorem sum_room_takers (c : Container) (item : ItemStack) (slots : List Nat) :
    ((c.takers item slots).map c.room).sum =
      ((c.partials item slots).map fun slot => 64 - (c.get slot).size).sum +
        64 * (c.vacancies slots).length := by
  have full : ∀ slot ∈ c.vacancies slots, c.room slot = 64 := fun slot mem =>
    room_of_vacancy (List.mem_filter.mp mem).2
  rw [takers, List.map_append, List.sum_append, List.map_congr_left full, List.map_const',
    List.sum_replicate, Int.nsmul_eq_mul, Int.mul_comm]
  rfl

/-- Spreading a stack is one pass over the slots that take some of it. -/
theorem offer_eq_pass (item : ItemStack) (solid : ∀ slot, (c.get slot).Solid)
    (inside : ∀ slot ∈ slots, slot < c.size) :
    c.offer slots item =
      let (ts, left) := c.pass c.room (c.grown item) (c.takers item slots) item.size
      (ts, item.ofCount? left) := by
  have topUps : ∀ left, c.fill item (c.topUpRoom? item) slots left =
      c.pass c.room (c.grown item) (c.partials item slots) left :=
    fill_eq_pass _ (fun slot _ => c.topUpRoom?_eq item slot) solid fun slot => room_of_partial
  have fills : ∀ left, c.fill item c.emptyRoom? slots left =
      c.pass c.room (c.grown item) (c.vacancies slots) left :=
    fill_eq_pass _ (fun slot mem => emptyRoom?_eq (inside slot mem)) solid
      fun slot empty => room_of_vacancy empty ▸ by decide
  rw [offer, takers, pass_append]
  simp only [topUps, fills]

theorem movers_takers (item : ItemStack) (solid : ∀ slot, (c.get slot).Solid)
    (distinct : slots.Nodup) (inside : ∀ slot ∈ slots, slot < c.size) :
    c.Movers c.room (c.grown item) (c.takers item slots) where
  distinct := nodup_takers c item distinct
  inside slot mem := inside slot (of_mem_takers mem).1
  space _ mem := (of_mem_takers mem).2
  solid _ _ _ _ fits := solid_grown fits
  idle slot _ := grown_zero (solid slot)

/-- The slot that a stack comes from keeps what is left of it. -/
theorem get_store_source {index : Nat} (here : index < c.size) (holds : c.get index = some item)
    (positive : 1 ≤ item.size) (low : 0 ≤ left) (most : left ≤ item.size) (slot : Nat) :
    (c.store (if Slot.size (item.ofCount? left) < item.size
      then [⟨index, some item, item.ofCount? left⟩] else [])).1.get slot =
        if slot = index then item.ofCount? left else c.get slot := by
  have small := item.size_le
  rw [Slot.size_ofCount? item low (by omega)]
  split
  · exact get_store_cons _ here (Slot.solid_ofCount? item (by omega)) (List.forall_mem_nil _) slot
  · -- nothing was moved
    obtain rfl : left = item.size := by omega
    rw [item.ofCount?_size positive, ← holds]
    by_cases named : slot = index
    · rw [if_pos named, named]
      rfl
    · rw [if_neg named]
      rfl

/-- Once a stack is spread over other slots, these have taken what fits, and its own slot keeps the
rest. -/
theorem get_store_spread {index : Nat} (solid : ∀ slot, (c.get slot).Solid)
    (holds : c.get index = some item) (here : index < c.size) (distinct : slots.Nodup)
    (inside : ∀ slot ∈ slots, slot < c.size ∧ slot ≠ index) :
    let (ts, left) := c.offer slots item
    ∃ moves, InTurn (c.takers item slots) c.room item.size moves ∧
      ∀ slot, (c.store (ts ++ if left.size < item.size
          then [⟨index, some item, left⟩] else [])).1.get slot =
        if slot = index then
          item.ofCount? (item.size - min item.size ((c.takers item slots).map c.room).sum)
        else if slot ∈ c.takers item slots then c.grown item slot (moves slot)
        else c.get slot := by
  have positive : 1 ≤ item.size := solid index item holds
  have low : 0 ≤ item.size := by omega
  have movers := movers_takers item solid distinct fun slot mem => (inside slot mem).1
  have others : index ∉ c.takers item slots := fun mem => (inside index (of_mem_takers mem).1).2 rfl
  have rooms := InTurn.sum_nonneg fun slot mem => Int.le_of_lt (movers.space slot mem)
  have rest := movers.left_pass low
  obtain ⟨moves, turns, filled⟩ := get_store_pass movers low
  rw [offer_eq_pass item solid fun slot mem => (inside slot mem).1]
  dsimp only
  have holds := (filled index).trans ((if_neg others).trans holds)
  refine ⟨moves, turns, fun slot => ?_⟩
  rw [store_append, rest, get_store_source (by rwa [(c.layout_store _).2.2]) holds positive
    (by omega) (by omega), filled]

/-! ## Shift clicks -/

/-- Targets are slots of the container, and no slot is its own target. -/
theorem of_mem_shiftTargets (shaped : c.Shaped) {target : Nat}
    (mem : target ∈ c.shiftTargets slot) : target < c.size ∧ target ≠ slot := by
  unfold shiftTargets at mem
  simp only [mainSlots, hotbarSlots, sharedSlots, upperSlots, offHandSlot, List.mem_range'_1,
    Bool.or_eq_true, decide_eq_true_eq, beq_iff_eq] at mem
  obtain ⟨player, size⟩ | ⟨other, size⟩ := shaped
  · have size : c.size = 46 := size
    rw [if_pos player] at mem
    split at mem
    · rw [List.mem_range'_1] at mem
      omega
    split at mem
    · rw [List.mem_range'_1] at mem
      omega
    split at mem
    · rw [List.mem_range'_1] at mem
      omega
    · cases mem
  · rw [if_neg other] at mem
    split at mem
    · rw [List.mem_reverse, List.mem_range'_1] at mem
      omega
    · rw [List.mem_range] at mem
      omega

end Container

namespace Inventory

variable {v : Inventory} {m : ClickWindow} {plan : ClickPlan}

theorem plan_shift (still : v.drag = none) (mode : m.mode = 1) (creative : Bool) :
    v.plan m creative = .ok (v, v.shiftClick m.slot m.button) := by
  simp [Inventory.plan, still, mode]

/-- A plan that leaves the cursor alone changes the current container only. -/
theorem make_of_unchanged (kept : plan.cursor.after = v.cursor) :
    v.make plan = v.withCurrent (v.current.store plan.slots).1 := by
  unfold make withCurrent
  rw [kept]
  cases v.window <;> rfl

/-- The plan of a shift click on a stack: as much as fits goes elsewhere, and the rest stays. -/
theorem shiftClick_of_held (shaped : v.current.Shaped) {slot : Int16} {button : Int8}
    {index : Nat} {item : ItemStack} (pressed : button = 0 ∨ button = 1)
    (held : v.slot? slot = some (index, some item)) :
    ∃ plan, v.shiftClick slot button = some plan ∧ plan.cursor.after = v.cursor ∧
      let (moved, left) := v.current.offer (v.current.shiftTargets index) item
      plan.slots = moved ++ if left.size < item.size then [⟨index, some item, left⟩] else [] := by
  have others : (v.current.shiftTargets index).filter (· != index) =
      v.current.shiftTargets index := by
    refine List.filter_eq_self.mpr fun target mem => ?_
    exact bne_iff_ne.mpr (Container.of_mem_shiftTargets shaped mem).2
  unfold shiftClick
  rw [held]
  simp only [Option.bind_eq_bind, Option.bind_some, Option.pure_def, others]
  obtain rfl | rfl := pressed <;> exact ⟨_, rfl, rfl, rfl⟩

end Inventory

/-- **A shift click moves as much as fits, topping up first.** The items of a stack go to those of
its targets that hold a similar stack of fewer than 64 items, and then to the empty ones, each
filled up to 64 before the next one gets any. What does not fit stays where it was, and nothing else
changes. -/
theorem shift_click_fills_in_turn (v : Inventory) (m : ClickWindow) (creative : Bool) (index : Nat)
    (item : ItemStack) (shaped : v.current.Shaped) (solid : v.current.Solid) (still : v.drag = none)
    (shown : m.windowId = v.current.windowId) (mode : m.mode = 1)
    (button : m.button = 0 ∨ m.button = 1) (held : v.slot? m.slot = some (index, some item)) :
    ∃ outcome moves, v.click id m creative = .ok outcome ∧
      let c := v.current
      let d := outcome.inventory.current
      let partials := c.partials item (c.shiftTargets index)
      let vacancies := c.vacancies (c.shiftTargets index)
      let moved := min item.size
        ((partials.map fun slot => 64 - (c.get slot).size).sum + 64 * vacancies.length)
      outcome.inventory = v.withCurrent d ∧
      (d.windowId = c.windowId ∧ d.own = c.own ∧ d.size = c.size) ∧
      InTurn (partials ++ vacancies) (fun slot => 64 - (c.get slot).size) item.size moves ∧
      ((partials ++ vacancies).map moves).sum = moved ∧
      ∀ slot, d.get slot =
        if slot = index then item.ofCount? (item.size - moved)
        else if slot ∈ partials ++ vacancies then
          ((c.get slot).getD item).ofCount? ((c.get slot).size + moves slot)
        else c.get slot := by
  obtain ⟨plan, planned, kept, slots⟩ := Inventory.shiftClick_of_held shaped button held
  obtain ⟨replies, clicked⟩ := Inventory.click_of_some shown
    ((Inventory.plan_shift still mode creative).trans
      (congrArg (fun plan => Except.ok (v, plan)) planned))
  obtain ⟨inside, holds, -⟩ := Inventory.slot?_eq_some held
  obtain ⟨moves, turns, filled⟩ := Container.get_store_spread solid.get holds.symm inside
    (Inventory.nodup_shiftTargets v.current index) fun _ => Container.of_mem_shiftTargets shaped
  have total := turns.total
  rw [v.current.sum_room_takers] at filled total
  rw [← slots] at filled
  refine ⟨_, moves, clicked, ?_⟩
  dsimp only
  rw [Inventory.current_make, Inventory.make_of_unchanged kept]
  exact ⟨rfl, v.current.layout_store plan.slots, turns, total, filled⟩

/-- The hundred stones of the main inventory, and sixty in the third slot of the hotbar. -/
def Inventory.stonesInHotbar : Inventory :=
  { Inventory.stones with player := Inventory.stones.player.put 38 (some ⟨1, 60, 0, none⟩) }

theorem solid_stonesInHotbar : Inventory.stonesInHotbar.current.Solid := by
  unfold Container.Solid
  decide

theorem shift_click_fills_hotbar :
    ∃ outcome, Inventory.stonesInHotbar.click id ⟨0, 10, 0, 1, 1, none⟩ false = .ok outcome ∧
      outcome.inventory.current.get 10 = none ∧
      outcome.inventory.current.get 38 = some ⟨1, 64, 0, none⟩ := by
  obtain ⟨outcome, moves, clicked, -, -, turns, -, filled⟩ :=
    shift_click_fills_in_turn Inventory.stonesInHotbar ⟨0, 10, 0, 1, 1, none⟩ false 10
      ⟨1, 100, 0, none⟩ (.inl ⟨rfl, rfl⟩) solid_stonesInHotbar rfl rfl rfl (.inl rfl) rfl
  have first : moves 38 = 4 := turns.of_cons.1
  refine ⟨outcome, clicked, filled 10, (filled 38).trans ?_⟩
  rw [first]
  rfl

end VoxelServer
