import VoxelServer.Proofs.Inventory.Clicks
import VoxelServer.Proofs.Inventory.Windows

/-!
# Writing under a window

While a window is open the slots that it shows exist twice. Clicks write to the window, the creative
mode's supply to the player's inventory, and once the window is gone its slots are the ones that
count:

* `Inventory.Reachable`: the inventories that any clicks, windows and other writes lead to, and
  `Inventory.Laid`, which tells how large their containers are;
* `Inventory.changeWindows`: windows that open and close, and `Inventory.player_changeWindows`, the
  player's inventory after them;
* `creative_write_kept_iff`: which items from the creative mode's supply outlive the windows.
-/

namespace VoxelServer

open Container (sharedSlots shownAt)

namespace Container

variable {p w : Container}

/-! ## What a window hands back -/

theorem whole_takeBack (whole : p.Whole) (size : w.size = w.own + 36) : (p.takeBack w).Whole := by
  have length : w.slots.length = w.own + 36 := size
  have all : p.slots.length = 46 := whole
  show (p.slots.take 9 ++ w.slots.drop w.own ++ p.slots.drop 45).length = 46
  simp only [List.length_append, List.length_take, List.length_drop, length, all]
  omega

/-- A slot that windows show holds what the window has in it, and any other what it held. -/
theorem get_takeBack (whole : p.Whole) (size : w.size = w.own + 36) (slot : Nat) :
    (p.takeBack w).get slot =
      if slot ∈ sharedSlots then w.get (shownAt w.own slot) else p.get slot := by
  have length : w.slots.length = w.own + 36 := size
  have all : p.slots.length = 46 := whole
  have upper : (p.slots.take 9).length = 9 := by simp [all]
  have mirrored : (w.slots.drop w.own).length = 36 := by simp [length]
  show (p.slots.take 9 ++ w.slots.drop w.own ++ p.slots.drop 45)[slot]?.join =
    if _ then w.slots[shownAt w.own slot]?.join else p.slots[slot]?.join
  rw [List.append_assoc]
  by_cases above : slot < 9
  · have hidden : slot ∉ sharedSlots := by
      rw [mem_sharedSlots]
      omega
    rw [if_neg hidden, List.getElem?_append_left (by omega), List.getElem?_take_of_lt above]
  rw [List.getElem?_append_right (by omega), upper]
  by_cases shared : slot < 45
  · rw [if_pos (mem_sharedSlots.mpr ⟨by omega, shared⟩),
      List.getElem?_append_left (by omega), List.getElem?_drop, shownAt]
  · have hidden : slot ∉ sharedSlots := by
      rw [mem_sharedSlots]
      omega
    have last : 45 + (slot - 9 - 36) = slot := by omega
    rw [if_neg hidden, List.getElem?_append_right (by omega), mirrored, List.getElem?_drop, last]

end Container

namespace Inventory

/-! ## Any inventory -/

/-- The inventories there can be, whatever clients send and listeners do. -/
inductive Reachable : Inventory → Prop
  | empty : Reachable .empty
  | click {v : Inventory} (before : Reachable v) {post : ClickEvent → ClickEvent} {m : ClickWindow}
      {creative : Bool} {outcome : Outcome ClickEvent}
      (clicked : v.click post m creative = .ok outcome) : Reachable outcome.inventory
  | creative {v : Inventory} (before : Reachable v) {post : CreativeEvent → CreativeEvent}
      {m : CreativeInventoryAction} {outcome : Outcome CreativeEvent}
      (taken : v.creative post m = .ok outcome) : Reachable outcome.inventory
  | openWindow {v : Inventory} (before : Reachable v) (windowId : UInt8) (size : Nat) :
      Reachable (v.openWindow windowId size)
  | closeWindow {v : Inventory} (before : Reachable v) (windowId : UInt8) :
      Reachable (v.closeWindow windowId).2
  /-- A slot of the player's inventory is set. -/
  | set {v : Inventory} (before : Reachable v) {slot : Nat} {item : Slot} {player : Container}
      (set : v.player.set? slot item = some player) : Reachable { v with player }
  | cursor {v : Inventory} (before : Reachable v) (cursor : Slot) : Reachable { v with cursor }

/-- The player's inventory is as large as it should be, and the window shows what it should. -/
structure Laid (v : Inventory) : Prop where
  player : v.player.Whole
  window : ∀ window ∈ v.window, window.size = window.own + 36

variable {v : Inventory}

theorem Laid.congr (h : v.Laid) {w : Inventory} (player : w.player = v.player)
    (window : w.window = v.window) : w.Laid :=
  ⟨player ▸ h.player, window ▸ h.window⟩

theorem Laid.withPlayer (h : v.Laid) {player : Container} (size : player.size = v.player.size) :
    Laid { v with player } :=
  ⟨size.trans h.player, h.window⟩

/-- What is stored in the current container does not change its layout. -/
theorem Laid.store (h : v.Laid) (transactions : List SlotTransaction) :
    (v.withCurrent (v.current.store transactions).1).Laid := by
  obtain ⟨-, own, size⟩ := v.current.layout_store transactions
  obtain ⟨player, window, cursor, drag⟩ := v
  cases window with
  | none => exact ⟨size.trans h.player, by simp [withCurrent]⟩
  | some window =>
    refine ⟨h.player, fun shown same => ?_⟩
    obtain rfl := Option.mem_some_iff.mp same
    rw [size, own]
    exact h.window window rfl

theorem Laid.uncovered (h : v.Laid) : v.uncovered.Whole := by
  obtain ⟨player, window, cursor, drag⟩ := v
  cases window with
  | none => exact h.player
  | some window => exact Container.whole_takeBack h.player (h.window window rfl)

/-- Planning a click at most changes the drag. -/
theorem drag_of_plan {m : ClickWindow} {creative : Bool} {w : Inventory} {plan : Option ClickPlan}
    (planned : v.plan m creative = .ok (w, plan)) : w = { v with drag := w.drag } := by
  by_cases drags : m.mode = 5
  · rw [Inventory.plan, if_pos (beq_iff_eq.mpr drags)] at planned
    obtain rfl : (v.dragClick m).1 = w := congrArg Prod.fst (Except.ok.inj planned)
    unfold dragClick
    dsimp only
    repeat' split
    all_goals rfl
  · cases plan with
    | none => rw [plan_of_none drags planned]
    | some plan => rw [(plan_cases drags planned).1]

theorem same_of_plan {m : ClickWindow} {creative : Bool} {w : Inventory} {plan : Option ClickPlan}
    (planned : v.plan m creative = .ok (w, plan)) :
    w.player = v.player ∧ w.window = v.window := by
  rw [drag_of_plan planned]
  exact ⟨rfl, rfl⟩

theorem Laid.click (h : v.Laid) {post : ClickEvent → ClickEvent} {m : ClickWindow} {creative : Bool}
    {outcome : Outcome ClickEvent} (clicked : v.click post m creative = .ok outcome) :
    outcome.inventory.Laid := by
  obtain rfl | ⟨w, planned, rfl⟩ | ⟨w, plan, planned, rfl⟩ := click_cases clicked
  · exact h
  · obtain ⟨player, window⟩ := same_of_plan planned
    exact h.congr player window
  · obtain ⟨player, window⟩ := same_of_plan planned
    have laid : w.Laid := h.congr player window
    simp only [finish]
    split
    · exact laid
    · exact (laid.store _).congr rfl rfl

/-- An item from the creative mode's supply changes the player's inventory, and not its layout. -/
theorem player_of_creative {post : CreativeEvent → CreativeEvent} {m : CreativeInventoryAction}
    {outcome : Outcome CreativeEvent} (taken : v.creative post m = .ok outcome) :
    ∃ player : Container, outcome.inventory = { v with player } ∧
      player.windowId = v.player.windowId ∧ player.size = v.player.size := by
  unfold Inventory.creative at taken
  cases made : v.creativeEvent m with
  | error e => simp [made, Bind.bind, Except.bind] at taken
  | ok event =>
    rw [made] at taken
    cases taken
    refine ⟨_, rfl, ?_⟩
    split
    · exact ⟨rfl, rfl⟩
    · obtain ⟨windowId, -, size⟩ := v.player.layout_store (post event).slots
      exact ⟨windowId, size⟩

theorem Laid.creative (h : v.Laid) {post : CreativeEvent → CreativeEvent}
    {m : CreativeInventoryAction} {outcome : Outcome CreativeEvent}
    (taken : v.creative post m = .ok outcome) : outcome.inventory.Laid := by
  obtain ⟨player, same, -, size⟩ := player_of_creative taken
  rw [same]
  exact h.withPlayer size

theorem Laid.openWindow (h : v.Laid) (windowId : UInt8) (size : Nat) :
    (v.openWindow windowId size).Laid := by
  refine ⟨h.uncovered, fun window same => ?_⟩
  obtain rfl := Option.mem_some_iff.mp same
  exact Container.size_overPlayer h.uncovered windowId size

theorem Laid.closeWindow (h : v.Laid) (windowId : UInt8) : (v.closeWindow windowId).2.Laid := by
  unfold Inventory.closeWindow
  split
  · exact ⟨h.uncovered, by simp⟩
  · exact h

theorem Reachable.laid (reachable : v.Reachable) : v.Laid := by
  induction reachable with
  | empty => exact ⟨rfl, by simp [Inventory.empty]⟩
  | click _ clicked laid => exact laid.click clicked
  | creative _ taken laid => exact laid.creative taken
  | openWindow _ windowId size laid => exact laid.openWindow windowId size
  | closeWindow _ windowId laid => exact laid.closeWindow windowId
  | set _ set laid =>
    unfold Container.set? at set
    split at set
    · cases set
      exact laid.withPlayer List.length_set
    · cases set
  | cursor _ cursor laid => exact laid.congr rfl rfl

/-! ## Windows that come and go -/

inductive WindowChange
  | opens (windowId : UInt8) (size : Nat)
  | closes (windowId : UInt8)

namespace WindowChange

def apply (v : Inventory) : WindowChange → Inventory
  | opens windowId size => v.openWindow windowId size
  | closes windowId => (v.closeWindow windowId).2

/-- The window in front goes away. -/
def Uncovers (v : Inventory) : WindowChange → Prop
  | opens _ _ => True
  | closes windowId => v.current.windowId = windowId

instance (v : Inventory) : DecidablePred (Uncovers v)
  | opens _ _ => inferInstanceAs (Decidable True)
  | closes windowId => inferInstanceAs (Decidable (v.current.windowId = windowId))

end WindowChange

def changeWindows (v : Inventory) (changes : List WindowChange) : Inventory :=
  changes.foldl WindowChange.apply v

/-- Once the window is gone its slots are handed back, and another window shows them. -/
theorem apply_of_uncovers {change : WindowChange} (uncovers : change.Uncovers v) :
    (change.apply v).player = v.uncovered ∧ (change.apply v).uncovered = v.uncovered := by
  cases change with
  | opens windowId size => exact ⟨rfl, Container.takeBack_overPlayer (.refl _) windowId size⟩
  | closes windowId =>
    have closed : WindowChange.apply v (.closes windowId) = ⟨v.uncovered, none, none, none⟩ := by
      rw [WindowChange.apply, Inventory.closeWindow, if_pos (beq_iff_eq.mpr uncovers)]
    rw [closed]
    exact ⟨rfl, rfl⟩

/-- A window that is not in front cannot be closed. -/
theorem apply_of_not_uncovers {change : WindowChange} (stays : ¬ change.Uncovers v) :
    change.apply v = v := by
  cases change with
  | opens => exact absurd trivial stays
  | closes windowId =>
    have behind : ¬ (v.current.windowId == windowId) = true :=
      fun same => stays (beq_iff_eq.mp same)
    simp only [WindowChange.apply, Inventory.closeWindow, if_neg behind]

/-- The first window that goes away decides what the player's inventory holds from then on. -/
theorem player_changeWindows (v : Inventory) (changes : List WindowChange) :
    (v.changeWindows changes).player =
      if ∃ change ∈ changes, change.Uncovers v then v.uncovered else v.player := by
  induction changes generalizing v with
  | nil => simp [changeWindows]
  | cons change changes ih =>
    show ((change.apply v).changeWindows changes).player = _
    rw [ih]
    by_cases uncovers : change.Uncovers v
    · obtain ⟨player, uncovered⟩ := apply_of_uncovers uncovers
      rw [player, uncovered, ite_self, if_pos ⟨change, List.mem_cons_self, uncovers⟩]
    · rw [apply_of_not_uncovers uncovers]
      simp only [List.mem_cons, exists_eq_or_imp, uncovers, false_or]

end Inventory

/-- **What is written under a window lasts until the window is gone.** An item from the creative
mode's supply is in its slot at once. After any windows that open and close it still is if, and only
if, the window that was open does not show the slot, stays open all the time, or has the same item
there. -/
theorem creative_write_kept_iff (v : Inventory) (reachable : v.Reachable)
    (m : CreativeInventoryAction) (slot : Nat) (valid : v.player.index? m.slot = some slot)
    (positive : ∀ item ∈ m.item, 0 < item.size) (changes : List Inventory.WindowChange) :
    ∃ outcome, v.creative id m = .ok outcome ∧
      outcome.inventory.player.get slot = m.item ∧
      ((outcome.inventory.changeWindows changes).player.get slot = m.item ↔
        ∀ window ∈ v.window, slot ∈ sharedSlots →
          (∃ change ∈ changes, change.Uncovers v) →
          window.get (shownAt window.own slot) = m.item) := by
  obtain ⟨event, replies, taken⟩ := Inventory.creative_of_index? valid
  have tidy : m.item.nonempty = m.item := by
    cases item : m.item with
    | none => rfl
    | some stack => exact if_pos (positive stack item)
  rw [tidy] at taken
  have inside := (Container.index?_eq_some valid).1
  have written : (v.player.put slot m.item).get slot = m.item := Container.get_put_self inside _
  refine ⟨_, taken, written, ?_⟩
  rw [Inventory.player_changeWindows]
  have laid := reachable.laid
  obtain ⟨player, window, cursor, drag⟩ := v
  cases window with
  | none =>
    simp only [Inventory.uncovered, ite_self]
    simpa using written
  | some window =>
    have handedBack := Container.get_takeBack (laid.player.put slot m.item)
      (laid.window window rfl) slot
    rw [written] at handedBack
    have same (change : Inventory.WindowChange) :
        change.Uncovers ⟨player.put slot m.item, some window, cursor, drag⟩ =
          change.Uncovers ⟨player, some window, cursor, drag⟩ := by
      cases change <;> rfl
    simp only [same, Inventory.uncovered]
    by_cases gone : ∃ change ∈ changes, change.Uncovers ⟨player, some window, cursor, drag⟩
    · rw [if_pos gone, handedBack]
      by_cases shared : slot ∈ sharedSlots <;> simp [shared, gone]
    · rw [if_neg gone]
      simp [gone, written]

/-- A chest opens and an item from the creative mode's supply is put into the crafting grid, which
the chest does not show. It outlives the chest and the next window. -/
theorem crafting_grid_outlives_chest :
    ∃ outcome, (Inventory.empty.openWindow 1 27).creative id ⟨3, some ⟨1, 5, 0, none⟩⟩ =
        .ok outcome ∧
      (outcome.inventory.changeWindows [.opens 2 9, .closes 2]).player.get 3 =
        some ⟨1, 5, 0, none⟩ := by
  obtain ⟨outcome, taken, -, kept⟩ :=
    creative_write_kept_iff (Inventory.empty.openWindow 1 27) (.openWindow .empty 1 27)
      ⟨3, some ⟨1, 5, 0, none⟩⟩ 3 (by decide) (by decide) [.opens 2 9, .closes 2]
  exact ⟨outcome, taken, kept.mpr fun window _ shared => absurd shared (by decide)⟩

/-- In the hotbar, which the chest shows, the item is gone once the chest is closed. -/
theorem hotbar_write_lost_under_chest :
    ∃ outcome, (Inventory.empty.openWindow 1 27).creative id ⟨36, some ⟨1, 5, 0, none⟩⟩ =
        .ok outcome ∧
      outcome.inventory.player.get 36 = some ⟨1, 5, 0, none⟩ ∧
      (outcome.inventory.changeWindows [.closes 1]).player.get 36 = none :=
  ⟨_, rfl, rfl, rfl⟩

end VoxelServer
