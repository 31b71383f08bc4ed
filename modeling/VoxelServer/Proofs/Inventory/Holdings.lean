import VoxelServer.Inventory.Reply
import VoxelServer.Proofs.Inventory.Transactions

/-!
# What an inventory holds

How many items of some kind there are in the slots and on the cursor, and what a plan makes of this
number:

* `Inventory.amount`: the number of items of a kind;
* `Inventory.Proper`: an inventory that clicks can be planned for;
* `ClickPlan.Faithful`: a plan that tells what the inventory holds;
* `Inventory.amount_make`, `Inventory.atMost_make`: what such a plan makes of the number of items,
  and of the size of the largest stack.
-/

namespace VoxelServer

open ItemStack (Kind)

/-! ## Numbers of items -/

/-- How many items of a kind a slot holds. -/
def Slot.amount (p : ItemStack → Bool) : Slot → Int
  | none => 0
  | some item => if p item then item.size else 0

/-- How many items of a kind some slots hold. -/
def amountIn (p : ItemStack → Bool) : List Slot → Int
  | [] => 0
  | slot :: slots => slot.amount p + amountIn p slots

def Container.amount (p : ItemStack → Bool) (c : Container) : Int := amountIn p c.slots

/-- How many items of a kind are in the current container and on the cursor. -/
def Inventory.amount (p : ItemStack → Bool) (v : Inventory) : Int :=
  v.cursor.amount p + v.current.amount p

/-- How many items of a kind transactions bring in, all in all. -/
def gain (p : ItemStack → Bool) : List SlotTransaction → Int
  | [] => 0
  | t :: ts => t.after.amount p - t.before.amount p + gain p ts

variable {p : ItemStack → Bool}

@[simp] theorem Slot.amount_none : Slot.amount p none = 0 := rfl

theorem Slot.amount_some (item : ItemStack) :
    Slot.amount p (some item) = if p item then item.size else 0 := rfl

theorem Slot.amount_withSize (kind : Kind p) (item : ItemStack) {n : Int} (low : 0 ≤ n)
    (high : n ≤ 127) : Slot.amount p (some (item.withSize n)) = if p item then n else 0 := by
  rw [amount_some, kind.withSize, ItemStack.size_withSize item low high]

theorem Slot.amount_ofCount? (kind : Kind p) (item : ItemStack) {n : Int} (low : 0 ≤ n)
    (high : n ≤ 127) : Slot.amount p (item.ofCount? n) = if p item then n else 0 := by
  unfold ItemStack.ofCount?
  split
  · exact amount_withSize kind item low high
  · obtain rfl : n = 0 := by omega
    simp

@[simp] theorem gain_nil : gain p [] = 0 := rfl

@[simp] theorem gain_cons (t : SlotTransaction) (ts : List SlotTransaction) :
    gain p (t :: ts) = t.after.amount p - t.before.amount p + gain p ts := rfl

@[simp] theorem gain_append (ts us : List SlotTransaction) :
    gain p (ts ++ us) = gain p ts + gain p us := by
  induction ts with
  | nil => simp
  | cons t ts ih =>
    rw [List.cons_append, gain_cons, gain_cons, ih]
    omega

namespace Container

theorem amount_put {c : Container} {slot : Nat} (inside : slot < c.size) (item : Slot) :
    (c.put slot item).amount p = c.amount p - (c.get slot).amount p + item.amount p := by
  obtain ⟨windowId, slots, own⟩ := c
  simp only [amount, put, get, size] at inside ⊢
  clear windowId own
  induction slots generalizing slot with
  | nil => cases inside
  | cons first slots ih =>
    cases slot with
    | zero =>
      simp only [List.set_cons_zero, amountIn, List.getElem?_cons_zero, Option.join_some]
      omega
    | succ slot =>
      have rest := ih (Nat.lt_of_succ_lt_succ inside)
      simp only [List.set_cons_succ, amountIn, List.getElem?_cons_succ]
      omega

theorem amount_store {c : Container} {ts : List SlotTransaction} (h : c.Faithful ts) :
    (c.store ts).1.amount p = c.amount p + gain p ts := by
  induction ts generalizing c with
  | nil => simp [store]
  | cons t ts ih =>
    obtain ⟨inside, before, proper⟩ := h.allowed t List.mem_cons_self
    rw [(store_cons (h.allowed t List.mem_cons_self) ts).1, ih h.rest, amount_put inside,
      gain_cons, before]
    omega

/-! ## Inventories -/

/-- The player's inventory, or a window with another number over it. -/
def Shaped (c : Container) : Prop :=
  c.windowId = 0 ∧ c.size = playerSize ∨ c.windowId ≠ 0 ∧ c.size = c.own + 36

/-- What every stack of the container is. -/
abbrev StacksProper (c : Container) : Prop := ∀ slot, (c.get slot).Proper

theorem get_player (slot : Nat) : Container.player.get slot = none := by
  simp only [get, player, List.getElem?_replicate]
  split <;> rfl

theorem shaped_player : Container.player.Shaped := .inl ⟨rfl, rfl⟩

end Container

namespace Inventory

/-- The container is one that clients know, and every stack has at least one item and a tidy
tree. -/
structure Proper (v : Inventory) : Prop where
  shaped : v.current.Shaped
  cursor : v.cursor.Proper
  slots : ∀ slot, (v.current.get slot).Proper

theorem proper_empty : Inventory.empty.Proper where
  shaped := Container.shaped_player
  cursor := Slot.proper_none
  slots slot := by
    rw [show Inventory.empty.current.get slot = none from Container.get_player slot]
    exact Slot.proper_none

/-- No stack has more than some number of items. -/
structure AtMost (v : Inventory) (bound : Int) : Prop where
  cursor : v.cursor.size ≤ bound
  slots : ∀ slot, (v.current.get slot).size ≤ bound

@[simp] theorem current_withCurrent (v : Inventory) (c : Container) :
    (v.withCurrent c).current = c := by
  unfold withCurrent current
  cases v.window <;> rfl

@[simp] theorem withCurrent_current (v : Inventory) : v.withCurrent v.current = v := by
  unfold withCurrent current
  cases v with
  | mk player window cursor drag => cases window <;> rfl

/-- The inventory once a plan is made. -/
def make (v : Inventory) (plan : ClickPlan) : Inventory :=
  { v.withCurrent (v.current.store plan.slots).1 with cursor := plan.cursor.after }

@[simp] theorem current_make (v : Inventory) (plan : ClickPlan) :
    (v.make plan).current = (v.current.store plan.slots).1 :=
  v.current_withCurrent _

/-- A plan changes the current container and the cursor. -/
theorem make_eq {v : Inventory} (still : v.drag = none) (plan : ClickPlan) :
    v.make plan =
      { v.withCurrent (v.make plan).current with
        cursor := (v.make plan).cursor, drag := none } := by
  rw [current_make, ← still]
  unfold make withCurrent
  cases v.window <;> rfl

@[simp] theorem cursor_make (v : Inventory) (plan : ClickPlan) :
    (v.make plan).cursor = plan.cursor.after := rfl

end Inventory

namespace ClickPlan

/-- A plan that tells what is on the cursor and in the slots, and leaves proper stacks. -/
structure Faithful (plan : ClickPlan) (v : Inventory) : Prop where
  before : plan.cursor.before = v.cursor
  after : plan.cursor.after.Proper
  slots : v.current.Faithful plan.slots

theorem Faithful.congr {plan : ClickPlan} {v w : Inventory} (h : plan.Faithful v)
    (current : w.current = v.current) (cursor : w.cursor = v.cursor) : plan.Faithful w :=
  ⟨h.before.trans cursor.symm, h.after, current ▸ h.slots⟩

/-- How many items of a kind a plan brings in. -/
def gain (p : ItemStack → Bool) (plan : ClickPlan) : Int :=
  plan.cursor.after.amount p - plan.cursor.before.amount p + VoxelServer.gain p plan.slots

/-- No stack of a plan has more than some number of items. -/
structure AtMost (plan : ClickPlan) (bound : Int) : Prop where
  cursor : plan.cursor.after.size ≤ bound
  slots : ∀ t ∈ plan.slots, t.after.size ≤ bound

end ClickPlan

namespace Inventory

variable {v : Inventory} {plan : ClickPlan}

theorem amount_make (h : plan.Faithful v) :
    (v.make plan).amount p = v.amount p + plan.gain p := by
  rw [amount, current_make, cursor_make, Container.amount_store h.slots, amount, ClickPlan.gain,
    h.before]
  omega

theorem atMost_make {bound : Int} (h : plan.Faithful v) (hv : v.AtMost bound)
    (hp : plan.AtMost bound) : (v.make plan).AtMost bound := by
  refine ⟨hp.cursor, fun slot => ?_⟩
  rw [current_make]
  exact Container.forall_get_store (P := fun held => held.size ≤ bound) h.slots hv.slots hp.slots
    slot

theorem shaped_make (shaped : v.current.Shaped) (plan : ClickPlan) :
    (v.make plan).current.Shaped := by
  obtain ⟨windowId, own, size⟩ := v.current.layout_store plan.slots
  rw [current_make, Container.Shaped, windowId, own, size]
  exact shaped

theorem proper_make (h : plan.Faithful v) (hv : v.Proper) : (v.make plan).Proper := by
  refine ⟨shaped_make hv.shaped plan, h.after, ?_⟩
  rw [current_make]
  exact Container.forall_get_store h.slots hv.slots fun t ht => (h.slots.allowed t ht).proper

/-! ## Clicks -/

/-- A click in another container. -/
theorem click_of_hidden {m : ClickWindow} {creative : Bool}
    (hidden : m.windowId ≠ v.current.windowId) : v.click id m creative = .ok ⟨v, none, []⟩ := by
  simp [click, hidden, Pure.pure, Except.pure]

/-- A click in the current container that has no plan, and listeners that change nothing. -/
theorem click_of_none {m : ClickWindow} {creative : Bool} {w : Inventory}
    (shown : m.windowId = v.current.windowId) (planned : v.plan m creative = .ok (w, none)) :
    v.click id m creative = .ok ⟨w, none, []⟩ := by
  simp [click, shown, planned, Bind.bind, Except.bind, Pure.pure, Except.pure]

/-- A click in the current container that has a plan, and listeners that change nothing. -/
theorem click_of_some {m : ClickWindow} {creative : Bool} {w : Inventory}
    (shown : m.windowId = v.current.windowId) (planned : v.plan m creative = .ok (w, some plan)) :
    ∃ replies, v.click id m creative = .ok
      ⟨w.make plan, some ⟨v.current.windowId, plan.kind, plan.cursor, plan.slots, false⟩,
        replies⟩ := by
  simp only [click, shown, planned, Bind.bind, Except.bind, Pure.pure, Except.pure,
    bne_self_eq_false, Bool.false_eq_true, if_false]
  exact ⟨_, rfl⟩

/-- What a click in the current container does is what it was planned to do. -/
theorem planned_of_click {m : ClickWindow} {creative : Bool} {outcome : Outcome ClickEvent}
    (shown : m.windowId = v.current.windowId) (clicked : v.click id m creative = .ok outcome) :
    (v.plan m creative = .ok (outcome.inventory, none)) ∨
      ∃ w plan, v.plan m creative = .ok (w, some plan) ∧ outcome.inventory = w.make plan := by
  cases planned : v.plan m creative with
  | error e => simp [click, shown, planned, Bind.bind, Except.bind] at clicked
  | ok result =>
    obtain ⟨w, plan⟩ := result
    cases plan with
    | none =>
      rw [click_of_none shown planned] at clicked
      cases clicked
      exact .inl rfl
    | some plan =>
      obtain ⟨replies, made⟩ := click_of_some shown planned
      rw [made] at clicked
      cases clicked
      exact .inr ⟨w, plan, rfl, rfl⟩

/-- A click is ignored, has no plan, or is finished the way the listeners leave its event. -/
theorem click_cases {post : ClickEvent → ClickEvent} {m : ClickWindow} {creative : Bool}
    {outcome : Outcome ClickEvent} (clicked : v.click post m creative = .ok outcome) :
    outcome = ⟨v, none, []⟩ ∨
      (∃ w, v.plan m creative = .ok (w, none) ∧ outcome = ⟨w, none, []⟩) ∨
      ∃ w plan, v.plan m creative = .ok (w, some plan) ∧
        let e := post ⟨v.current.windowId, plan.kind, plan.cursor, plan.slots, false⟩
        outcome = ⟨(w.finish e m.action).1, some e, (w.finish e m.action).2⟩ := by
  unfold click at clicked
  dsimp only at clicked
  split at clicked
  · cases clicked
    exact .inl rfl
  cases planned : v.plan m creative with
  | error e => simp [planned, Bind.bind, Except.bind] at clicked
  | ok result =>
    obtain ⟨w, plan⟩ := result
    rw [planned] at clicked
    cases plan with
    | none =>
      cases clicked
      exact .inr (.inl ⟨w, rfl, rfl⟩)
    | some plan =>
      cases clicked
      exact .inr (.inr ⟨w, plan, rfl, rfl⟩)

/-- An item from the creative mode's supply goes into the slot it is meant for, if the listeners
change nothing. -/
theorem creative_of_index? {m : CreativeInventoryAction} {slot : Nat}
    (valid : v.player.index? m.slot = some slot) :
    ∃ event replies, v.creative id m =
      .ok ⟨{ v with player := v.player.put slot m.item.nonempty }, event, replies⟩ := by
  obtain ⟨inside, same⟩ := Container.index?_eq_some valid
  have kept : ¬ m.slot < 0 := by
    rw [Int16.lt_iff_toInt_lt, ← same]
    exact Int.not_lt.mpr (Int.natCast_nonneg slot)
  have set : v.player.set? slot m.item = some (v.player.put slot m.item.nonempty) := if_pos inside
  unfold Inventory.creative creativeEvent
  rw [if_neg kept, valid]
  simp only [Bind.bind, Except.bind, Pure.pure, Except.pure, id_eq, Bool.false_eq_true, if_false,
    Container.store, set]
  exact ⟨_, _, rfl⟩

end Inventory

end VoxelServer
