import VoxelServer.Proofs.Inventory.Clicks
import VoxelServer.Proofs.Inventory.Dealing

/-!
# Drags

What a drag deals out goes into slots that were looked at earlier, one by one. Between then and the
end of the drag anyone may write to the inventory:

* `Inventory.Write`, `Inventory.writeAll`: clicks of drags, and other writes between them;
* `Inventory.Dragging`: what every such run keeps;
* `drag_keeps_items_iff`: the end of a drag keeps all items if, and only if, every slot it puts
  items into is empty or holds the same item by then.
-/

namespace VoxelServer

open ItemStack (Kind)

namespace Inventory

/-! ## Runs -/

/-- What may happen to an inventory while a drag is going on. -/
inductive Write
  /-- A click of a drag. -/
  | drag (m : ClickWindow) (isCreative : Bool)
  /-- An item from the creative mode's supply. -/
  | creative (m : CreativeInventoryAction)
  /-- A slot of the player's inventory is set. -/
  | set (slot : Nat) (item : Slot)
  | cursor (item : Slot)

namespace Write

/-- Clicks are those of drags, and stacks that come in are proper. -/
def Fine : Write → Prop
  | drag m _ => m.mode = 5
  | creative m => m.item.Proper
  | set _ item | cursor item => item.Proper

/-- The inventory after a write that the listeners leave alone. -/
def apply (v : Inventory) : Write → Inventory
  | drag m isCreative =>
    match v.click id m isCreative with
    | .ok outcome => outcome.inventory
    | .error _ => v
  | creative m =>
    match v.creative id m with
    | .ok outcome => outcome.inventory
    | .error _ => v
  | set slot item => { v with player := (v.player.set? slot item).getD v.player }
  | cursor item => { v with cursor := item }

end Write

def writeAll (v : Inventory) (writes : List Write) : Inventory := writes.foldl Write.apply v

/-- An inventory that clicks can be planned for, and a drag, if there is one, across different
slots of it. -/
structure Dragging (v : Inventory) : Prop where
  proper : v.Proper
  distinct : ∀ drag ∈ v.drag, drag.slots.Nodup
  inside : ∀ drag ∈ v.drag, ∀ slot ∈ drag.slots, slot < v.current.size

variable {v : Inventory}

theorem plan_drag {m : ClickWindow} (mode : m.mode = 5) (creative : Bool) :
    v.plan m creative = .ok (v.dragClick m) := by
  rw [Inventory.plan, if_pos (beq_iff_eq.mpr mode)]

/-- A drag with one more slot is still one across different slots. -/
theorem addSlot_fits {c : Container} {drag : Drag} (held : ItemStack) (slot : Int16)
    (distinct : drag.slots.Nodup) (inside : ∀ s ∈ drag.slots, s < c.size) :
    (drag.addSlot c held slot).slots.Nodup ∧
      ∀ s ∈ (drag.addSlot c held slot).slots, s < c.size := by
  unfold Drag.addSlot
  cases found : c.index? slot with
  | none => exact ⟨distinct, inside⟩
  | some index =>
    dsimp only
    split
    · rename_i added
      have fresh : index ∉ drag.slots := by
        obtain ⟨-, fresh⟩ := Bool.and_eq_true_iff.mp added
        simpa using fresh
      refine ⟨?_, fun s hs => ?_⟩
      · rw [List.nodup_append]
        refine ⟨distinct, by simp, fun a ha b hb same => ?_⟩
        rw [List.mem_singleton.mp hb] at same
        exact fresh (same ▸ ha)
      · obtain hs | hs := List.mem_append.mp hs
        · exact inside s hs
        · rw [List.mem_singleton.mp hs]
          exact (Container.index?_eq_some found).1
    · exact ⟨distinct, inside⟩

/-- What a click of a drag leads to: the items stay where they are, and there may be a plan to deal
out what is on the cursor. -/
structure Stepped (v : Inventory) (result : Inventory × Option ClickPlan) : Prop where
  dragging : result.1.Dragging
  current : result.1.current = v.current
  cursor : result.1.cursor = v.cursor
  plan : result.2 = none ∨ ∃ drag held, v.drag = some drag ∧ v.cursor = some held ∧
    result.2 = some (v.finishDrag drag held)

theorem stepped_of_drag (proper : v.Proper) {drag : Option Drag}
    (distinct : ∀ d ∈ drag, d.slots.Nodup)
    (inside : ∀ d ∈ drag, ∀ slot ∈ d.slots, slot < v.current.size) :
    v.Stepped ({ v with drag }, none) :=
  ⟨⟨⟨proper.shaped, proper.cursor, proper.slots⟩, distinct, inside⟩, rfl, rfl, .inl rfl⟩

theorem stepped_dragClick (h : v.Dragging) (m : ClickWindow) : v.Stepped (v.dragClick m) := by
  have stopped : v.Stepped ({ v with drag := none }, none) :=
    stepped_of_drag h.proper (by simp) (by simp)
  unfold dragClick
  dsimp only
  split
  · exact stopped
  rename_i held cursor
  split
  · exact stepped_of_drag h.proper (by simp) (by simp)
  · rename_i drag button going add
    split
    · obtain ⟨distinct, inside⟩ := addSlot_fits held m.slot (h.distinct drag going)
        (h.inside drag going)
      exact stepped_of_drag h.proper (by simpa using distinct) (by simpa using inside)
    · exact stopped
  · rename_i drag button going finish
    split
    · exact { stopped with plan := .inr ⟨drag, held, going, cursor, rfl⟩ }
    · exact stopped
  · exact stopped

/-- What the end of a drag plans, in full. -/
theorem finishDrag_spec (h : v.Dragging) {drag : Drag} {held : ItemStack}
    (going : v.drag = some drag) (cursor : v.cursor = some held) :
    (v.finishDrag drag held).Faithful v ∧
      (∀ t ∈ (v.finishDrag drag held).slots, v.current.Dealt held drag.slots t) ∧
      ∀ {p}, Kind p →
        (v.finishDrag drag held).gain p = misfit p held (v.finishDrag drag held).slots := by
  have proper := h.proper.cursor held cursor
  have positive := proper.positive
  have small := held.size_le
  obtain ⟨faithful, dealt, low, high, gained⟩ :=
    Container.deals_deal (drag.share held.size) held.size h.proper.slots proper
      (h.distinct drag going) (h.inside drag going) (by omega)
  unfold finishDrag
  generalize v.current.deal held (drag.share held.size) drag.slots held.size = dealing at *
  obtain ⟨ts, left⟩ := dealing
  dsimp only at *
  refine ⟨⟨cursor.symm, Slot.proper_ofCount? proper (by omega), faithful⟩, dealt, fun kind => ?_⟩
  rw [ClickPlan.gain, gained kind, Slot.amount_ofCount? kind held low (by omega),
    Slot.amount_some]
  split <;> omega

/-- A plan of this kind keeps as many items similar to any stack exactly if it puts none over a
foreign stack. -/
theorem similar_make_iff {w : Inventory} {plan : ClickPlan} {held : ItemStack}
    (current : w.current = v.current) (cursor : w.cursor = v.cursor) (faithful : plan.Faithful v)
    (proper : ∀ t ∈ plan.slots, t.before.Proper)
    (gained : ∀ {p}, Kind p → plan.gain p = misfit p held plan.slots) :
    (∀ x, (w.make plan).amount (·.isSimilar x) = v.amount (·.isSimilar x)) ↔
      ∀ t ∈ plan.slots, ∀ found ∈ t.before, ∀ x, found.isSimilar x = held.isSimilar x := by
  have same {p : ItemStack → Bool} (kind : Kind p) :
      (w.make plan).amount p = v.amount p ↔
        ∀ t ∈ plan.slots, ∀ found ∈ t.before, p found = p held := by
    have unmoved : w.amount p = v.amount p := by rw [amount, amount, current, cursor]
    rw [amount_make (faithful.congr current cursor), unmoved, gained kind,
      ← misfit_eq_zero_iff proper]
    omega
  constructor
  · intro all t ht found hf x
    exact (same (ItemStack.kind_similar x)).mp (all x) t ht found hf
  · intro alike x
    exact (same (ItemStack.kind_similar x)).mpr fun t ht found hf => alike t ht found hf x

/-! ### What every run keeps -/

theorem dragging_make {plan : ClickPlan} (h : v.Dragging) (faithful : plan.Faithful v) :
    (v.make plan).Dragging := by
  have drag : (v.make plan).drag = v.drag := by
    unfold make withCurrent
    cases v.window <;> rfl
  refine ⟨proper_make faithful h.proper, ?_, ?_⟩
  · rw [drag]
    exact h.distinct
  · rw [drag, current_make, (v.current.layout_store plan.slots).2.2]
    exact h.inside

theorem dragging_drag (h : v.Dragging) {m : ClickWindow} (mode : m.mode = 5) (isCreative : Bool) :
    (Write.apply v (.drag m isCreative)).Dragging := by
  unfold Write.apply
  dsimp only
  by_cases shown : m.windowId = v.current.windowId
  · have stepped := stepped_dragClick h m
    have planned := plan_drag (v := v) mode isCreative
    obtain ⟨dragging, current, cursor, nothing | ⟨drag, held, going, holds, finished⟩⟩ := stepped
    · rw [click_of_none shown (planned.trans (congrArg _ (Prod.ext rfl nothing)))]
      exact dragging
    · obtain ⟨replies, clicked⟩ :=
        click_of_some shown (planned.trans (congrArg _ (Prod.ext rfl finished)))
      rw [clicked]
      obtain ⟨faithful, -, -⟩ := finishDrag_spec h going holds
      exact dragging_make dragging (faithful.congr current cursor)
  · rw [click_of_hidden shown]
    exact h

/-- An item from the creative mode's supply is thrown away or put into a slot. -/
theorem creative_cases {m : CreativeInventoryAction} (proper : m.item.Proper)
    {outcome : Outcome CreativeEvent} (taken : v.creative id m = .ok outcome) :
    outcome.inventory = v ∨ ∃ slot < v.player.size,
      outcome.inventory = { v with player := v.player.put slot m.item } := by
  cases found : v.player.index? m.slot with
  | some slot =>
    obtain ⟨event, replies, put⟩ := creative_of_index? found
    obtain rfl := Except.ok.inj (taken.symm.trans put)
    refine .inr ⟨slot, (Container.index?_eq_some found).1, ?_⟩
    rw [proper.nonempty]
  | none =>
    unfold Inventory.creative creativeEvent at taken
    by_cases thrown : m.slot < 0
    · rw [if_pos thrown] at taken
      cases Except.ok.inj taken
      exact .inl rfl
    · rw [if_neg thrown, found] at taken
      cases taken

theorem dragging_player (h : v.Dragging) {slot : Nat} (inside : slot < v.player.size) {item : Slot}
    (proper : item.Proper) : Dragging { v with player := v.player.put slot item } := by
  obtain ⟨player, window, cursor, drag⟩ := v
  cases window with
  | some window => exact ⟨⟨h.proper.shaped, h.proper.cursor, h.proper.slots⟩, h.distinct, h.inside⟩
  | none =>
    refine ⟨⟨?_, h.proper.cursor, fun other => ?_⟩, h.distinct, ?_⟩
    · have shaped : player.Shaped := h.proper.shaped
      exact show (player.put slot item).Shaped by
        rw [Container.Shaped, Container.windowId_put, Container.own_put, Container.size_put]
        exact shaped
    · show ((player.put slot item).get other).Proper
      by_cases same : slot = other
      · rw [← same, Container.get_put_self inside]
        exact proper
      · rw [Container.get_put_of_ne same]
        exact h.proper.slots other
    · intro d going s hs
      show s < (player.put slot item).size
      rw [Container.size_put]
      exact h.inside d going s hs

theorem dragging_apply (h : v.Dragging) {write : Write} (fine : write.Fine) :
    (write.apply v).Dragging := by
  cases write with
  | drag m isCreative => exact dragging_drag h fine isCreative
  | cursor item =>
    exact ⟨⟨h.proper.shaped, fine, h.proper.slots⟩, h.distinct, h.inside⟩
  | set slot item =>
    have fine : item.Proper := fine
    simp only [Write.apply, Container.set?]
    split
    · rename_i inside
      rw [fine.nonempty]
      exact dragging_player h inside fine
    · exact h
  | creative m =>
    unfold Write.apply
    dsimp only
    split
    · rename_i outcome taken
      obtain same | ⟨slot, inside, set⟩ := creative_cases fine taken
      · rw [same]
        exact h
      · rw [set]
        exact dragging_player h inside fine
    · exact h

theorem dragging_writeAll (h : v.Dragging) {writes : List Write} (fine : ∀ w ∈ writes, w.Fine) :
    (v.writeAll writes).Dragging := by
  induction writes generalizing v with
  | nil => exact h
  | cons write writes ih =>
    exact ih (dragging_apply h (fine write List.mem_cons_self))
      fun w hw => fine w (List.mem_cons_of_mem _ hw)

end Inventory

/-- **The end of a drag keeps all items exactly if nothing foreign lies where they go.** After any
run of drags and other writes, a click of a drag leaves all stacks alone, or puts items from the
cursor into some slots; then as many items similar to any stack are left as there were if, and only
if, each of these slots is empty or holds the same item as the cursor at that moment. -/
theorem drag_keeps_items_iff (start : Inventory) (proper : start.Proper) (idle : start.drag = none)
    (writes : List Inventory.Write) (fine : ∀ w ∈ writes, w.Fine) (m : ClickWindow)
    (isCreative : Bool) (mode : m.mode = 5) :
    let v := start.writeAll writes
    ∃ outcome, v.click id m isCreative = .ok outcome ∧
      let w := outcome.inventory
      match outcome.event with
      | none => w.current = v.current ∧ w.cursor = v.cursor
      | some e => ∃ held, v.cursor = some held ∧
        (∀ t ∈ e.slots, t.before = v.current.get t.slot ∧ t.after = w.current.get t.slot ∧
          (∃ n, t.after = some (held.withSize n)) ∧ t.before.size < t.after.size) ∧
        (∀ slot, (∀ t ∈ e.slots, t.slot ≠ slot) → w.current.get slot = v.current.get slot) ∧
        ((∀ x, w.amount (·.isSimilar x) = v.amount (·.isSimilar x)) ↔
          ∀ t ∈ e.slots, ∀ found ∈ t.before, ∀ x, found.isSimilar x = held.isSimilar x) ∧
        (held.isSimilar held = true →
          ((∀ x, w.amount (·.isSimilar x) = v.amount (·.isSimilar x)) ↔
            ∀ t ∈ e.slots, ∀ found ∈ t.before, found.isSimilar held = true)) := by
  intro v
  have dragging : v.Dragging :=
    Inventory.dragging_writeAll ⟨proper, by simp [idle], by simp [idle]⟩ fine
  clear_value v
  by_cases shown : m.windowId = v.current.windowId
  · have planned := Inventory.plan_drag (v := v) mode isCreative
    obtain ⟨-, current, cursor, nothing | ⟨drag, held, going, holds, finished⟩⟩ :=
      Inventory.stepped_dragClick dragging m
    · exact ⟨_, Inventory.click_of_none shown (planned.trans (congrArg _ (Prod.ext rfl nothing))),
        current, cursor⟩
    · obtain ⟨replies, clicked⟩ :=
        Inventory.click_of_some shown (planned.trans (congrArg _ (Prod.ext rfl finished)))
      obtain ⟨faithful, dealt, gained⟩ := Inventory.finishDrag_spec dragging going holds
      have proper_before : ∀ t ∈ (v.finishDrag drag held).slots, t.before.Proper := fun t ht =>
        (dealt t ht).before ▸ dragging.proper.slots t.slot
      have kept := Inventory.similar_make_iff current cursor faithful proper_before gained
      refine ⟨_, clicked, held, holds, fun t ht => ?_, fun slot unnamed => ?_, kept, fun self => ?_⟩
      · obtain ⟨-, before, after, more, -⟩ := dealt t ht
        refine ⟨before, ?_, after, more⟩
        rw [Inventory.current_make, current, Container.get_store_of_mem faithful.slots ht]
      · rw [Inventory.current_make, current, Container.get_store_of_not_mem faithful.slots unnamed]
      · rw [kept]
        constructor
        · intro alike t ht found hf
          rw [alike t ht found hf held]
          exact self
        · intro similar t ht found hf
          exact ItemStack.isSimilar_congr (proper_before t ht found hf).tidy (similar t ht found hf)
  · exact ⟨_, Inventory.click_of_hidden shown, rfl, rfl⟩

/-- A drag across two empty slots of the hotbar. -/
def Inventory.dragTwo : List Inventory.Write :=
  [.drag ⟨0, -999, 0, 0, 5, none⟩ false, .drag ⟨0, 36, 1, 0, 5, none⟩ false,
    .drag ⟨0, 37, 1, 0, 5, none⟩ false]

theorem drag_keeps_stones :
    let v := Inventory.stones.writeAll Inventory.dragTwo
    ∃ outcome, v.click id ⟨0, -999, 2, 0, 5, none⟩ false = .ok outcome ∧
      outcome.inventory.cursor = some ⟨1, 1, 0, none⟩ ∧
      ∀ x, outcome.inventory.amount (·.isSimilar x) = v.amount (·.isSimilar x) := by
  intro v
  obtain ⟨outcome, clicked, kept⟩ := drag_keeps_items_iff Inventory.stones proper_stones rfl
    Inventory.dragTwo (by simp [Inventory.dragTwo, Inventory.Write.Fine]) ⟨0, -999, 2, 0, 5, none⟩
    false rfl
  have computed : ∃ w replies, v.click id ⟨0, -999, 2, 0, 5, none⟩ false = .ok
      ⟨w, some ⟨0, .dragPrimary, ⟨some ⟨1, 5, 0, none⟩, some ⟨1, 1, 0, none⟩⟩,
        [⟨36, none, some ⟨1, 2, 0, none⟩⟩, ⟨37, none, some ⟨1, 2, 0, none⟩⟩], false⟩, replies⟩ ∧
      w.cursor = some ⟨1, 1, 0, none⟩ := ⟨_, _, rfl, rfl⟩
  obtain ⟨w, replies, computed, cursor⟩ := computed
  obtain rfl := Except.ok.inj (clicked.symm.trans computed)
  obtain ⟨held, -, -, -, iff, -⟩ := kept
  exact ⟨_, computed, cursor, iff.mpr (by simp)⟩

/-- Ten stones are dragged over an empty slot, which is filled with something else then. -/
def Inventory.dragOverwritten : List Inventory.Write :=
  [.cursor (some ⟨1, 10, 0, none⟩), .drag ⟨0, -999, 0, 0, 5, none⟩ false,
    .drag ⟨0, 10, 1, 0, 5, none⟩ false, .creative ⟨10, some ⟨3, 5, 0, none⟩⟩]

/-- The end of a drag does not look at the slots again: what came to lie there is lost. -/
theorem drag_overwrites_foreign_stack :
    ¬ ∀ (start : Inventory), start.Proper → start.drag = none →
      ∀ writes : List Inventory.Write, (∀ w ∈ writes, w.Fine) →
      ∀ (m : ClickWindow) (isCreative : Bool), m.mode = 5 →
      ∀ outcome, (start.writeAll writes).click id m isCreative = .ok outcome →
      ∀ x, outcome.inventory.amount (·.isSimilar x) =
        (start.writeAll writes).amount (·.isSimilar x) := by
  intro claim
  have fine : ∀ w ∈ Inventory.dragOverwritten, w.Fine := by
    have stones : ItemStack.Proper ⟨1, 10, 0, none⟩ := ItemStack.proper_of_none rfl (by decide)
    have other : ItemStack.Proper ⟨3, 5, 0, none⟩ := ItemStack.proper_of_none rfl (by decide)
    simp [Inventory.dragOverwritten, Inventory.Write.Fine, stones, other]
  have lost := claim Inventory.empty Inventory.proper_empty rfl Inventory.dragOverwritten fine
    ⟨0, -999, 2, 0, 5, none⟩ false rfl _ rfl ⟨3, 5, 0, none⟩
  revert lost
  decide

end VoxelServer
