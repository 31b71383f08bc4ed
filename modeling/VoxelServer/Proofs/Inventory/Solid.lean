import VoxelServer.Proofs.Inventory.Contents
import VoxelServer.Proofs.Inventory.Drags
import VoxelServer.Proofs.Inventory.Uncovering

/-!
# Stacks without items

A click takes items off stacks and puts items on them, and reckons with at least one on each. Slots
look at what is put into them, so that a stack without items never lies there. The cursor takes what
the listeners of a click say:

* `Inventory.Solid`: every stack has items;
* `Inventory.solid_cursor_of_plan`: no click plans to leave a stack without items on the cursor;
* `Inventory.Use`: clicks, windows and the creative mode's supply, with whoever listens, and
  `Inventory.Use.Hollows`, listeners that leave such a stack there;
* `stacks_stay_solid_iff`: all stacks have items, unless listeners do that.
-/

namespace VoxelServer

/-- Every slot is solid. -/
def Container.Solid (c : Container) : Prop := ∀ slot ∈ c.slots, slot.Solid

namespace Container

variable {c : Container}

theorem Solid.get (solid : c.Solid) (slot : Nat) : (c.get slot).Solid :=
  Each.get solid Slot.solid_none slot

/-- No more items are left of a stack than there were. -/
theorem left_deal_le (c : Container) (item : ItemStack) (share : Int) (slots : List Nat)
    (left : Int) : (c.deal item share slots left).2 ≤ left := by
  induction slots generalizing left with
  | nil => exact Int.le_refl left
  | cons slot slots ih =>
    generalize placing :
      min (min share (ItemStack.maxCount - (c.get slot).size)) left = placed
    by_cases none_placed : placed ≤ 0
    · rw [deal_cons_of_none (placing ▸ none_placed)]
      exact ih left
    · have rest := ih (left - placed)
      rw [deal_cons_of_some placing (by omega)]
      exact Int.le_trans rest (by omega)

end Container

namespace Inventory

/-- Every slot of every container is solid. -/
structure SlotsSolid (v : Inventory) : Prop where
  player : v.player.Solid
  window : ∀ window ∈ v.window, window.Solid

/-- There is no stack without items. -/
structure Solid (v : Inventory) : Prop extends v.SlotsSolid where
  cursor : v.cursor.Solid

theorem solid_empty : Inventory.empty.Solid where
  player := Container.each_player Slot.solid_none
  window := by simp [Inventory.empty]
  cursor := Slot.solid_none

variable {v w : Inventory} {m : ClickWindow} {creative : Bool} {plan : ClickPlan}

theorem slotsSolid_iff : v.SlotsSolid ↔ v.Each Slot.Solid :=
  ⟨fun solid => ⟨solid.player, solid.window⟩, fun all => ⟨all.player, all.window⟩⟩

theorem SlotsSolid.current (solid : v.SlotsSolid) : v.current.Solid :=
  (slotsSolid_iff.mp solid).current

/-! ## Plans -/

/-- A trade leaves a stack with items on the cursor, or nothing. -/
theorem solid_exchange (button : MouseButton) {held current : Slot} (hh : held.Solid)
    (hc : current.Solid) : (button.exchange held current).1.Solid := by
  cases held with
  | none =>
    cases current with
    | none => exact hh
    | some item =>
      have positive := Slot.solid_some.mp hc
      have most := item.size_le
      cases button with
      | primary => exact hc
      | secondary =>
        have half : 0 ≤ item.size.tdiv 2 ∧ 2 * item.size.tdiv 2 ≤ item.size := by
          rw [Int.tdiv_eq_ediv_of_nonneg (by omega)]
          omega
        exact Slot.solid_withSize item (by omega) (by omega)
  | some item =>
    have positive := Slot.solid_some.mp hh
    have most := item.size_le
    have lessens {n : Int} (low : 0 ≤ n) : Slot.Solid (item.ofCount? (item.size - n)) :=
      Slot.solid_ofCount? item (by omega)
    cases current with
    | none =>
      cases button with
      | primary =>
        have placed : 0 ≤ min item.size ItemStack.maxCount := by
          rw [ItemStack.maxCount]
          omega
        exact lessens placed
      | secondary => exact lessens (show (0 : Int) ≤ 1 by decide)
    | some stack =>
      simp only [MouseButton.exchange]
      by_cases similar : item.isSimilar stack = true
      · rw [if_pos similar]
        cases button with
        | primary => exact lessens (Int.le_max_right _ _)
        | secondary =>
          by_cases full : stack.size ≥ ItemStack.maxCount
          · rw [if_pos full]
            exact hh
          · rw [if_neg full]
            exact lessens (by decide)
      · rw [if_neg similar]
        exact hc

/-- A stack that items are gathered for keeps those it has. -/
theorem solid_gather {c : Container} (solid : c.Solid) {held : ItemStack} (positive : 1 ≤ held.size)
    (short : held.size ≤ ItemStack.maxCount) :
    Slot.Solid (some (held.withSize (c.gather held).2)) := by
  let isPartial (found : ItemStack) : Bool := found.size < ItemStack.maxCount
  obtain ⟨more, most⟩ := Container.count_drain
    (fun found => found.isSimilar held && isPartial found) c.indices held.size solid.get short
  obtain ⟨more', most'⟩ := Container.count_drain
    (fun found => found.isSimilar held && !isPartial found) c.indices _ solid.get most
  have most' : (c.gather held).2 ≤ 64 := most'
  exact Slot.solid_withSize held (Int.le_trans positive (Int.le_trans more more')) (by omega)

theorem solid_plainClick (cursor : v.cursor.Solid) (slots : v.current.Solid) {slot : Int16}
    {button : Int8} (planned : v.plainClick slot button = some plan) :
    plan.cursor.after.Solid := by
  obtain ⟨⟨index, held⟩, found, planned⟩ := Option.bind_eq_some_iff.mp planned
  obtain ⟨pressed, -, planned⟩ := Option.bind_eq_some_iff.mp planned
  obtain ⟨-, rfl, -⟩ := slot?_eq_some found
  cases planned
  exact solid_exchange pressed cursor (slots.get index)

theorem solid_middleClick (cursor : v.cursor.Solid) (slot : Int16) (creative : Bool) :
    (v.middleClick slot creative).cursor.after.Solid := by
  unfold middleClick
  cases creative with
  | false => exact cursor
  | true =>
    cases holds : v.cursor with
    | some item =>
      rw [holds] at cursor
      exact cursor
    | none =>
      cases found : v.slot? slot with
      | none => exact Slot.solid_none
      | some place =>
        obtain ⟨index, copied⟩ := place
        cases copied with
        | none => exact Slot.solid_none
        | some item => exact Slot.solid_withSize item (by decide) (by decide)

theorem solid_doubleClick (cursor : v.cursor.Solid) (slots : v.current.Solid) {slot : Int16}
    {button : Int8} (planned : v.doubleClick slot button = some plan) :
    plan.cursor.after.Solid := by
  unfold doubleClick at planned
  split at planned
  · cases planned
  obtain ⟨-, -, planned⟩ := Option.bind_eq_some_iff.mp planned
  cases holds : v.cursor with
  | none =>
    rw [holds] at planned
    cases planned
    exact Slot.solid_none
  | some held =>
    have positive := cursor held holds
    rw [holds] at planned
    dsimp only at planned
    split at planned
    · cases planned
      exact Slot.solid_some.mpr positive
    · rename_i short
      cases planned
      exact solid_gather slots positive (Int.le_of_lt (Int.not_le.mp short))

theorem solid_outsideClick {button : Int8} (planned : v.outsideClick button = some plan) :
    plan.cursor.after.Solid := by
  obtain ⟨pressed, -, planned⟩ := Option.bind_eq_some_iff.mp planned
  cases pressed with
  | primary =>
    cases planned
    exact Slot.solid_none
  | secondary =>
    cases planned
    cases v.cursor with
    | none => exact Slot.solid_none
    | some item =>
      have most := item.size_le
      exact Slot.solid_ofCount? item (by omega)

theorem cursor_shiftClick {slot : Int16} {button : Int8}
    (planned : v.shiftClick slot button = some plan) : plan.cursor.after = v.cursor := by
  obtain ⟨pressed, -, planned⟩ := Option.bind_eq_some_iff.mp planned
  obtain ⟨⟨index, held⟩, -, planned⟩ := Option.bind_eq_some_iff.mp planned
  cases held <;> cases planned <;> rfl

theorem cursor_numberClick {slot : Int16} {button : Int8}
    (planned : v.numberClick slot button = some plan) : plan.cursor.after = v.cursor := by
  unfold numberClick at planned
  split at planned
  · cases planned
  obtain ⟨⟨index, held⟩, -, planned⟩ := Option.bind_eq_some_iff.mp planned
  obtain ⟨hotbar, -, planned⟩ := Option.bind_eq_some_iff.mp planned
  dsimp only at planned
  split at planned <;> cases planned <;> rfl

theorem cursor_dropClick {slot : Int16} {button : Int8}
    (planned : v.dropClick slot button = some plan) : plan.cursor.after = v.cursor := by
  obtain ⟨pressed, -, planned⟩ := Option.bind_eq_some_iff.mp planned
  obtain ⟨⟨index, held⟩, -, planned⟩ := Option.bind_eq_some_iff.mp planned
  cases planned
  rfl

theorem solid_of_plans (cursor : v.cursor.Solid) (slots : v.current.Solid)
    (plans : v.Plans m creative plan) : plan.cursor.after.Solid := by
  cases plans with
  | plain _ _ planned => exact solid_plainClick cursor slots planned
  | shift _ planned => exact cursor_shiftClick planned ▸ cursor
  | number _ planned => exact cursor_numberClick planned ▸ cursor
  | middle _ planned => exact planned ▸ solid_middleClick cursor m.slot creative
  | drop _ _ planned => exact cursor_dropClick planned ▸ cursor
  | double _ planned => exact solid_doubleClick cursor slots planned
  | outside _ _ planned => exact solid_outsideClick planned

/-- A drag has a plan only at its end. -/
theorem eq_finishDrag_of_dragClick (planned : (v.dragClick m).2 = some plan) :
    ∃ drag held, v.cursor = some held ∧ plan = v.finishDrag drag held := by
  unfold dragClick at planned
  dsimp only at planned
  split at planned
  · cases planned
  rename_i held holds
  split at planned
  · cases planned
  · split at planned <;> cases planned
  · rename_i drag button _ _
    split at planned
    · cases planned
      exact ⟨drag, held, holds, rfl⟩
    · cases planned
  · cases planned

/-- No click plans to leave a stack without items on the cursor. -/
theorem solid_cursor_of_plan (solid : v.Solid)
    (planned : v.plan m creative = .ok (w, some plan)) : plan.cursor.after.Solid := by
  by_cases drags : m.mode = 5
  · rw [plan_drag drags] at planned
    obtain ⟨drag, held, -, rfl⟩ :=
      eq_finishDrag_of_dragClick (congrArg Prod.snd (Except.ok.inj planned))
    have less := v.current.left_deal_le held (drag.share held.size) drag.slots held.size
    exact Slot.solid_ofCount? held (Int.le_trans less held.size_le)
  · exact solid_of_plans solid.cursor solid.current (plan_cases drags planned).2.2

/-! ## Runs -/

/-- The event that a click makes, before anyone has heard of it. -/
def clickEvent? (v : Inventory) (m : ClickWindow) (creative : Bool) : Option ClickEvent :=
  if m.windowId = v.current.windowId then
    match v.plan m creative with
    | .ok (_, some plan) => some ⟨v.current.windowId, plan.kind, plan.cursor, plan.slots, false⟩
    | _ => none
  else none

/-- What clients do to an inventory and the server does for them, with whoever listens. -/
inductive Use
  | click (post : ClickEvent → ClickEvent) (m : ClickWindow) (isCreative : Bool)
  | creative (post : CreativeEvent → CreativeEvent) (m : CreativeInventoryAction)
  | openWindow (windowId : UInt8) (size : Nat)
  | closeWindow (windowId : UInt8)

namespace Use

/-- The inventory after a use. One that is refused changes nothing. -/
def apply (v : Inventory) : Use → Inventory
  | .click post m isCreative =>
    match v.click post m isCreative with
    | .ok outcome => outcome.inventory
    | .error _ => v
  | .creative post m =>
    match v.creative post m with
    | .ok outcome => outcome.inventory
    | .error _ => v
  | .openWindow windowId size => v.openWindow windowId size
  | .closeWindow windowId => (v.closeWindow windowId).2

/-- The listeners let a click count, and make it leave a stack without items on the cursor. The
click itself would not have. -/
def Hollows (v : Inventory) : Use → Prop
  | .click post m isCreative => ∃ e, v.clickEvent? m isCreative = some e ∧ e.cursor.after.Solid ∧
      (post e).cancelled = false ∧ ¬ (post e).cursor.after.Solid
  | _ => False

end Use

def useAll (v : Inventory) (uses : List Use) : Inventory := uses.foldl Use.apply v

/-- The event of a click tells what was planned. -/
theorem plan_of_clickEvent? {e : ClickEvent} (made : v.clickEvent? m creative = some e) :
    m.windowId = v.current.windowId ∧ ∃ w plan, v.plan m creative = .ok (w, some plan) ∧
      e = ⟨v.current.windowId, plan.kind, plan.cursor, plan.slots, false⟩ := by
  unfold clickEvent? at made
  split at made
  · rename_i shown
    split at made
    · rename_i w plan planned
      cases made
      exact ⟨shown, w, plan, planned, rfl⟩
    · cases made
  · cases made

/-- A click that has a plan leaves no drag going on. -/
theorem stopped_of_plan (planned : v.plan m creative = .ok (w, some plan)) :
    w = { v with drag := none } := by
  by_cases drags : m.mode = 5
  · rw [plan_drag drags] at planned
    have result := Except.ok.inj planned
    unfold dragClick at result
    dsimp only at result
    repeat' split at result
    all_goals
      cases result
      try rfl
  · obtain ⟨rfl, still, -⟩ := plan_cases drags planned
    rw [← still]

/-- While a drag is going on no click is refused. -/
theorem still_of_refused {refusal : CodecError} (refused : v.plan m creative = .error refusal) :
    v.drag = none := by
  unfold Inventory.plan at refused
  split at refused
  · cases refused
  split at refused
  · cases refused
  · rename_i still
    simpa using still

/-- A click is refused, makes no event and at most changes the drag, or is finished the way the
listeners leave its event. -/
theorem click_answers (v : Inventory) (post : ClickEvent → ClickEvent) (m : ClickWindow)
    (creative : Bool) :
    (v.clickEvent? m creative = none ∧ v.drag = none ∧
      ∃ refusal, v.click post m creative = .error refusal) ∨
    (v.clickEvent? m creative = none ∧
      ∃ drag, v.click post m creative = .ok ⟨{ v with drag }, none, []⟩) ∨
    ∃ e, v.clickEvent? m creative = some e ∧
      let finished := Inventory.finish { v with drag := none } (post e) m.action
      v.click post m creative = .ok ⟨finished.1, some (post e), finished.2⟩ := by
  by_cases shown : m.windowId = v.current.windowId
  · cases planned : v.plan m creative with
    | error refusal =>
      refine .inl ⟨by simp [clickEvent?, planned], still_of_refused planned, refusal, ?_⟩
      simp [Inventory.click, shown, planned, Bind.bind, Except.bind]
    | ok result =>
      obtain ⟨w, plan⟩ := result
      cases plan with
      | none =>
        refine .inr (.inl ⟨by simp [clickEvent?, planned], w.drag, ?_⟩)
        rw [← drag_of_plan planned]
        simp [Inventory.click, shown, planned, Bind.bind, Except.bind, Pure.pure, Except.pure]
      | some plan =>
        refine .inr (.inr ⟨_, by simp only [clickEvent?, shown, planned, if_true]; rfl, ?_⟩)
        rw [← stopped_of_plan planned]
        simp [Inventory.click, shown, planned, Bind.bind, Except.bind, Pure.pure, Except.pure]
  · refine .inr (.inl ⟨by simp [clickEvent?, shown], v.drag, ?_⟩)
    simp [Inventory.click, shown, Pure.pure, Except.pure]

/-- A click at most ends a drag, or is finished the way the listeners leave its event. -/
theorem apply_click (v : Inventory) (post : ClickEvent → ClickEvent) (m : ClickWindow)
    (creative : Bool) :
    ∃ drag, Use.apply v (.click post m creative) =
      match v.clickEvent? m creative with
      | some e => (Inventory.finish { v with drag } (post e) m.action).1
      | none => { v with drag } := by
  obtain ⟨unplanned, -, refusal, refused⟩ | ⟨unplanned, drag, clicked⟩ | ⟨e, made, clicked⟩ :=
    v.click_answers post m creative
  · exact ⟨v.drag, by simp only [Use.apply, refused, unplanned]⟩
  · exact ⟨drag, by simp only [Use.apply, clicked, unplanned]⟩
  · exact ⟨none, by simp only [Use.apply, clicked, made]⟩

/-- An item from the creative mode's supply at most goes to slots of the player. -/
theorem apply_creative (v : Inventory) (post : CreativeEvent → CreativeEvent)
    (m : CreativeInventoryAction) :
    ∃ ts, Use.apply v (.creative post m) = { v with player := (v.player.store ts).1 } ∧
      ∀ t ∈ ts, ∃ e, v.creativeEvent m = .ok e ∧ t ∈ (post e).slots := by
  cases made : v.creativeEvent m with
  | error e => exact ⟨[], by simp [Use.apply, Inventory.creative, made, Bind.bind, Except.bind,
      Container.store], List.forall_mem_nil _⟩
  | ok e =>
    cases cancelled : (post e).cancelled with
    | true => exact ⟨[], by simp [Use.apply, Inventory.creative, made, cancelled, Bind.bind,
        Except.bind, Pure.pure, Except.pure, Container.store], List.forall_mem_nil _⟩
    | false => exact ⟨(post e).slots, by simp [Use.apply, Inventory.creative, made, cancelled,
        Bind.bind, Except.bind, Pure.pure, Except.pure], fun t ht => ⟨e, rfl, ht⟩⟩

theorem solid_clickEvent? {e : ClickEvent} (solid : v.Solid)
    (made : v.clickEvent? m creative = some e) : e.cursor.after.Solid := by
  obtain ⟨-, w, plan, planned, rfl⟩ := plan_of_clickEvent? made
  exact solid_cursor_of_plan solid planned

/-- The cursor takes what the event says. -/
theorem cursor_finish (v : Inventory) (e : ClickEvent) (action : Int16) :
    (v.finish e action).1.cursor = if e.cancelled then v.cursor else e.cursor.after := by
  unfold Inventory.finish
  dsimp only
  split <;> rfl

theorem SlotsSolid.apply (solid : v.SlotsSolid) (use : Use) : (use.apply v).SlotsSolid := by
  rw [slotsSolid_iff] at solid ⊢
  cases use with
  | click post m isCreative =>
    obtain ⟨drag, same⟩ := v.apply_click post m isCreative
    have solid : Inventory.Each Slot.Solid { v with drag } := solid.congr rfl rfl
    rw [same]
    split
    · exact solid.finish _ m.action fun t _ => t.after.solid_nonempty
    · exact solid
  | creative post m =>
    obtain ⟨ts, same, -⟩ := v.apply_creative post m
    rw [same]
    exact ⟨solid.player.store fun t _ => t.after.solid_nonempty, solid.window⟩
  | openWindow windowId size => exact solid.openWindow Slot.solid_none windowId size
  | closeWindow windowId => exact solid.closeWindow windowId

/-- One use leaves a stack without items behind only if the listeners make it. -/
theorem Solid.apply_iff (solid : v.Solid) (use : Use) :
    (use.apply v).Solid ↔ ¬ use.Hollows v := by
  have slots := solid.toSlotsSolid.apply use
  suffices cursor : (use.apply v).cursor.Solid ↔ ¬ use.Hollows v from
    ⟨fun all => cursor.mp all.cursor, fun kept => ⟨slots, cursor.mpr kept⟩⟩
  cases use with
  | click post m isCreative =>
    obtain ⟨drag, same⟩ := v.apply_click post m isCreative
    rw [same]
    cases made : v.clickEvent? m isCreative with
    | none => simp [Use.Hollows, made, solid.cursor]
    | some e =>
      dsimp only
      have planned := solid_clickEvent? solid made
      rw [cursor_finish]
      cases cancelled : (post e).cancelled <;>
        simp [Use.Hollows, made, planned, cancelled, solid.cursor]
  | creative post m =>
    obtain ⟨ts, same, -⟩ := v.apply_creative post m
    rw [same]
    exact iff_of_true solid.cursor id
  | openWindow windowId size => exact iff_of_true solid.cursor id
  | closeWindow windowId =>
    refine iff_of_true ?_ id
    show (v.closeWindow windowId).2.cursor.Solid
    unfold Inventory.closeWindow
    split
    · exact Slot.solid_none
    · exact solid.cursor

theorem SlotsSolid.useAll (solid : v.SlotsSolid) (uses : List Use) :
    (v.useAll uses).SlotsSolid := by
  induction uses generalizing v with
  | nil => exact solid
  | cons use uses ih => exact ih (solid.apply use)

/-- As long as no listener makes a stack without items there is none. -/
theorem Solid.useAll (solid : v.Solid) {uses : List Use}
    (kept : ∀ done use rest, uses = done ++ use :: rest → ¬ use.Hollows (v.useAll done)) :
    (v.useAll uses).Solid := by
  induction uses generalizing v with
  | nil => exact solid
  | cons use uses ih =>
    have first : (use.apply v).Solid := (solid.apply_iff use).mpr (kept [] use uses rfl)
    exact ih first fun done next rest same => kept (use :: done) next rest (congrArg _ same)

/-- No slot of an inventory ever holds a stack without items. -/
theorem Reachable.slotsSolid (reachable : v.Reachable) : v.SlotsSolid := by
  induction reachable with
  | empty => exact solid_empty.toSlotsSolid
  | @click v _ post m creative outcome clicked solid =>
    have applied := solid.apply (.click post m creative)
    simp only [Use.apply, clicked] at applied
    exact applied
  | @creative v _ post m outcome taken solid =>
    have applied := solid.apply (.creative post m)
    simp only [Use.apply, taken] at applied
    exact applied
  | openWindow _ windowId size solid => exact solid.apply (.openWindow windowId size)
  | closeWindow _ windowId solid => exact solid.apply (.closeWindow windowId)
  | @set v _ slot item player set solid =>
    have stored : (v.player.store [⟨slot, none, item⟩]).1.Solid :=
      Container.Each.store solid.player fun t _ => t.after.solid_nonempty
    simp only [Container.store, set] at stored
    exact ⟨stored, solid.window⟩
  | cursor _ _ solid => exact ⟨solid.player, solid.window⟩

end Inventory

/-- **Stacks have items unless listeners see to it.** Whatever clients send and listeners do, no
slot ever holds a stack without items. As long as listeners leave none on the cursor, where the
click would have left items or nothing, there is none on the cursor either; and once they do, there
is. -/
theorem stacks_stay_solid_iff (v : Inventory) (solid : v.Solid) (uses : List Inventory.Use) :
    (∀ done rest, uses = done ++ rest → (v.useAll done).SlotsSolid) ∧
    ((∀ done rest, uses = done ++ rest → (v.useAll done).Solid) ↔
      ∀ done use rest, uses = done ++ use :: rest → ¬ use.Hollows (v.useAll done)) := by
  refine ⟨fun done _ _ => solid.toSlotsSolid.useAll done, fun all done use rest same => ?_,
    fun kept done rest same => ?_⟩
  · have before := all done (use :: rest) same
    have after := all (done ++ [use]) rest (by simp [same])
    rw [Inventory.useAll, List.foldl_append] at after
    exact (before.apply_iff use).mp after
  · refine solid.useAll fun done' use rest' same' => kept done' use (rest' ++ rest) ?_
    rw [same, same']
    simp

/-- A stack of no items from the creative mode's supply, and listeners that put one of fewer than
none into a slot and into the chest that is open by then. -/
def Inventory.hollowSlots : List Inventory.Use :=
  let post (e : ClickEvent) : ClickEvent := { e with slots := [⟨10, none, some ⟨1, -5, 0, none⟩⟩] }
  [.creative id ⟨36, some ⟨1, 0, 0, none⟩⟩, .click post ⟨0, 10, 0, 1, 0, none⟩ false,
    .openWindow 1 27, .click post ⟨1, 10, 1, 1, 0, none⟩ false, .closeWindow 1]

/-- Slots keep none of them. -/
theorem hollow_slots_stay_empty :
    Inventory.empty.Solid ∧ (Inventory.empty.useAll Inventory.hollowSlots).Solid := by
  refine ⟨Inventory.solid_empty, ?_⟩
  refine (stacks_stay_solid_iff Inventory.empty Inventory.solid_empty Inventory.hollowSlots).2.mpr
    (fun done use rest same => ?_) Inventory.hollowSlots [] (by simp)
  have mem : use ∈ Inventory.hollowSlots := by simp [same]
  simp only [Inventory.hollowSlots, List.mem_cons, List.not_mem_nil, or_false] at mem
  -- the listeners leave the cursor as the click would
  obtain rfl | rfl | rfl | rfl | rfl := mem
  · exact id
  · exact fun ⟨_, _, planned, _, hollow⟩ => hollow planned
  · exact id
  · exact fun ⟨_, _, planned, _, hollow⟩ => hollow planned
  · exact id

/-- A click on an empty slot, with a listener that leaves a stack of no items on the cursor, and a
click that puts one item of it down. -/
def Inventory.hollowCursor : List Inventory.Use :=
  let post (e : ClickEvent) : ClickEvent :=
    { e with cursor := ⟨e.cursor.before, some ⟨1, 0, 0, none⟩⟩ }
  [.click post ⟨0, 10, 0, 1, 0, none⟩ false, .click id ⟨0, 10, 1, 2, 0, none⟩ false]

/-- The stack stays on the cursor after the first click, and the second makes an item out of
nothing. -/
theorem cursor_keeps_hollow_stack :
    Inventory.empty.Solid ∧
      (Inventory.empty.useAll (Inventory.hollowCursor.take 1)).cursor = some ⟨1, 0, 0, none⟩ ∧
      ¬ (Inventory.empty.useAll (Inventory.hollowCursor.take 1)).Solid ∧
      (Inventory.empty.useAll Inventory.hollowCursor).player.get 10 = some ⟨1, 1, 0, none⟩ := by
  refine ⟨Inventory.solid_empty, rfl, fun solid => ?_, rfl⟩
  have cursor : Slot.Solid (some ⟨1, 0, 0, none⟩) := solid.cursor
  exact absurd cursor (by decide)

end VoxelServer
