import VoxelServer.Proofs.Inventory.Drags
import VoxelServer.Proofs.Inventory.Windows

/-!
# Playing through a window

Whoever clicks on the player's slots in a window moves the same items as without the window. The
window has other numbers for these slots, and everything a click does is done under them:

* `Inventory.Mirrors`: an inventory with a window in front, and one without that holds the same;
* `Inventory.Mirrors.click_shown`: a click keeps the two in step;
* `window_mirrors_player`: so does any run of clicks, in one window after the other, and once the
  last window is closed nothing tells the two apart.
-/

namespace VoxelServer

open Container (shownAt shownNumber sharedSlots)

/-! ## Under the numbers of a window -/

def SlotTransaction.shown (size : Nat) (t : SlotTransaction) : SlotTransaction :=
  { t with slot := shownAt size t.slot }

def ClickPlan.shown (size : Nat) (plan : ClickPlan) : ClickPlan :=
  { plan with slots := plan.slots.map (·.shown size) }

def Drag.shown (size : Nat) (drag : Drag) : Drag :=
  { drag with slots := drag.slots.map (shownAt size) }

/-- A click on the player's inventory as it is made in a window. -/
def ClickWindow.shown (windowId : UInt8) (size : Nat) (m : ClickWindow) : ClickWindow :=
  { m with windowId, slot := shownNumber size m.slot }

/-- A plan for slots that windows show. -/
def ClickPlan.Shared (plan : ClickPlan) : Prop := ∀ t ∈ plan.slots, t.slot ∈ sharedSlots

/-- One of two clicks has the plan of the other, under the numbers of a window. -/
structure ClickPlan.Shows (size : Nat) (plain shown : Option ClickPlan) : Prop where
  same : shown = plain.map (·.shown size)
  shared : ∀ plan ∈ plain, plan.Shared

/-- A slot number outside of every window, or of a slot that windows show. -/
def Reaches (number : Int16) : Prop :=
  number = outsideSlot ∨ 9 ≤ number.toInt ∧ number.toInt < 45

instance (number : Int16) : Decidable (Reaches number) := inferInstanceAs (Decidable (_ ∨ _))

theorem shownNumber_eq_outside {size : Nat} (numbered : Container.Numbered size) {number : Int16}
    (reaches : Reaches number) :
    shownNumber size number = outsideSlot ↔ number = outsideSlot := by
  obtain rfl | shared := reaches
  · exact iff_of_true (if_neg (by decide)) rfl
  · have there := Container.toInt_shownNumber numbered shared
    refine iff_of_false (fun same => ?_) (fun same => ?_)
    · rw [same, show outsideSlot.toInt = -999 from rfl] at there
      omega
    · rw [same, show outsideSlot.toInt = -999 from rfl] at shared
      omega

/-- A click on the player's inventory that names a slot which windows show, or none. Where a drag
starts or ends it does not matter what the click names. -/
structure ClickWindow.Reaching (m : ClickWindow) : Prop where
  inFront : m.windowId = 0
  mode : m.mode ∈ [0, 2, 3, 4, 5]
  slot : Reaches m.slot ∨
    m.mode = 5 ∧ ∀ button, DragStep.ofNumber? m.button ≠ some (.add button)

theorem Container.store_shown {c p : Container} (whole : c.Whole) (same : p.SameOutside c)
    {ts : List SlotTransaction} (shared : ∀ t ∈ ts, t.slot ∈ sharedSlots) (windowId : UInt8)
    (size : Nat) :
    ((c.overPlayer windowId size).store (ts.map (·.shown size))).1 =
        (c.store ts).1.overPlayer windowId size ∧
      (c.store ts).1.Whole ∧ p.SameOutside (c.store ts).1 := by
  induction ts generalizing c with
  | nil => exact ⟨rfl, whole, same⟩
  | cons t ts ih =>
    obtain ⟨here, rest⟩ := List.forall_mem_cons.mp shared
    have plain : c.set? t.slot t.after = some (c.put t.slot t.after.nonempty) :=
      if_pos (whole.inside here)
    have inside : shownAt size t.slot < (c.overPlayer windowId size).size := by
      rw [mem_sharedSlots] at here
      rw [size_overPlayer whole, shownAt]
      omega
    have shown : (c.overPlayer windowId size).set? (shownAt size t.slot) t.after =
        some ((c.put t.slot t.after.nonempty).overPlayer windowId size) := by
      rw [overPlayer_put here]
      exact if_pos inside
    simp only [List.map_cons, store, SlotTransaction.shown, plain, shown]
    exact ih (whole.put _ _) (same.put here _) rest

namespace Inventory

/-- An inventory without a window, and one that holds the same behind a window with `size` slots
of its own. The clicks of a drag that is going on have named the same slots. -/
structure Mirrors (windowId : UInt8) (size : Nat) (plain shown : Inventory) : Prop where
  player : plain.player.windowId = 0
  whole : plain.player.Whole
  uncovered : plain.window = none
  window : shown.window = some (plain.player.overPlayer windowId size)
  outside : shown.player.SameOutside plain.player
  cursor : shown.cursor = plain.cursor
  drag : shown.drag = plain.drag.map (·.shown size)
  within : ∀ drag ∈ plain.drag, ∀ slot ∈ drag.slots, slot ∈ sharedSlots

namespace Mirrors

variable {windowId : UInt8} {size : Nat} {plain shown : Inventory} {number : Int16} {button : Int8}

theorem current_plain (h : Mirrors windowId size plain shown) : plain.current = plain.player := by
  rw [current, h.uncovered]
  rfl

theorem current_shown (h : Mirrors windowId size plain shown) :
    shown.current = plain.player.overPlayer windowId size := by
  rw [current, h.window]
  rfl

theorem get_shownAt (h : Mirrors windowId size plain shown) {slot : Nat}
    (shared : slot ∈ sharedSlots) :
    shown.current.get (shownAt size slot) = plain.current.get slot := by
  rw [h.current_shown, h.current_plain, Container.get_overPlayer_shownAt shared]

/-! ### Plans -/

theorem index? (h : Mirrors windowId size plain shown) (numbered : Container.Numbered size)
    (reaches : Reaches number) :
    (plain.current.index? number = none ∧
        shown.current.index? (shownNumber size number) = none) ∨
      ∃ index ∈ sharedSlots, plain.current.index? number = some index ∧
        shown.current.index? (shownNumber size number) = some (shownAt size index) := by
  rw [h.current_plain, h.current_shown]
  obtain rfl | shared := reaches
  · have same : shownNumber size outsideSlot = outsideSlot := if_neg (by decide)
    rw [same]
    exact .inl ⟨Container.index?_of_neg (by decide), Container.index?_of_neg (by decide)⟩
  · obtain ⟨there, here⟩ := Container.index?_overPlayer h.whole numbered shared windowId
    refine .inr ⟨_, ?_, there, here⟩
    rw [Container.mem_sharedSlots]
    omega

theorem slot? (h : Mirrors windowId size plain shown) (numbered : Container.Numbered size)
    (reaches : Reaches number) :
    (plain.slot? number = none ∧ shown.slot? (shownNumber size number) = none) ∨
      ∃ index ∈ sharedSlots, plain.slot? number = some (index, plain.current.get index) ∧
        shown.slot? (shownNumber size number) =
          some (shownAt size index, plain.current.get index) := by
  unfold Inventory.slot?
  obtain ⟨there, here⟩ | ⟨index, shared, there, here⟩ := h.index? numbered reaches
  · exact .inl ⟨by rw [there]; rfl, by rw [here]; rfl⟩
  · refine .inr ⟨index, shared, by rw [there]; rfl, ?_⟩
    rw [here, ← h.get_shownAt shared]
    rfl

theorem shows_plainClick (h : Mirrors windowId size plain shown)
    (numbered : Container.Numbered size) (reaches : Reaches number) :
    ClickPlan.Shows size (plain.plainClick number button)
      (shown.plainClick (shownNumber size number) button) := by
  unfold plainClick
  obtain ⟨there, here⟩ | ⟨index, shared, there, here⟩ := h.slot? numbered reaches
  · rw [there, here]
    exact ⟨rfl, by simp⟩
  · rw [there, here, h.cursor]
    cases MouseButton.ofNumber? button with
    | none => exact ⟨rfl, by simp⟩
    | some pressed =>
      simp only [bind, Option.bind_some, pure]
      cases (pressed.exchange plain.cursor (plain.current.get index)).2 with
      | none => exact ⟨rfl, by simp [ClickPlan.Shared]⟩
      | some now => exact ⟨rfl, by simpa [ClickPlan.Shared] using shared⟩

theorem shows_outsideClick (h : Mirrors windowId size plain shown) :
    ClickPlan.Shows size (plain.outsideClick button) (shown.outsideClick button) := by
  unfold outsideClick
  rw [h.cursor]
  cases MouseButton.ofNumber? button with
  | none => exact ⟨rfl, by simp⟩
  | some pressed => cases pressed <;> exact ⟨rfl, by simp [ClickPlan.Shared]⟩

theorem shows_dropClick (h : Mirrors windowId size plain shown)
    (numbered : Container.Numbered size) (reaches : Reaches number) :
    ClickPlan.Shows size (plain.dropClick number button)
      (shown.dropClick (shownNumber size number) button) := by
  unfold dropClick
  cases MouseButton.ofNumber? button with
  | none => exact ⟨rfl, by simp⟩
  | some pressed =>
    obtain ⟨there, here⟩ | ⟨index, shared, there, here⟩ := h.slot? numbered reaches
    · rw [there, here]
      exact ⟨rfl, by simp⟩
    · rw [there, here, h.cursor]
      cases plain.current.get index with
      | none => exact ⟨rfl, by simp [ClickPlan.Shared]⟩
      | some item => exact ⟨rfl, by simpa [ClickPlan.Shared] using shared⟩

theorem shows_middleClick (h : Mirrors windowId size plain shown)
    (numbered : Container.Numbered size) (reaches : Reaches number) (creative : Bool) :
    ClickPlan.Shows size (some (plain.middleClick number creative))
      (some (shown.middleClick (shownNumber size number) creative)) := by
  unfold middleClick
  obtain ⟨there, here⟩ | ⟨index, shared, there, here⟩ := h.slot? numbered reaches
  all_goals
    rw [there, here, h.cursor]
    exact ⟨rfl, by simp [ClickPlan.Shared]⟩

theorem shows_numberClick (h : Mirrors windowId size plain shown) (other : windowId ≠ 0)
    (numbered : Container.Numbered size) (reaches : Reaches number) :
    ClickPlan.Shows size (plain.numberClick number button)
      (shown.numberClick (shownNumber size number) button) := by
  unfold numberClick
  split
  · exact ⟨rfl, by simp⟩
  obtain ⟨there, here⟩ | ⟨index, shared, there, here⟩ := h.slot? numbered reaches
  · rw [there, here]
    exact ⟨rfl, by simp⟩
  obtain ⟨hotbar, inside⟩ :=
    Container.hotbar?_overPlayer h.player other size button.toInt.toNat
  rw [← h.current_shown, ← h.current_plain] at hotbar
  rw [← h.current_plain] at inside
  simp only [there, here, hotbar, h.cursor, bind, Option.bind_some]
  cases key : plain.current.hotbar? button.toInt.toNat with
  | none => exact ⟨rfl, by simp⟩
  | some slot =>
    have known := inside slot key
    have same : (shownAt size slot == shownAt size index) = (slot == index) := by
      rw [Bool.eq_iff_iff, beq_iff_eq, beq_iff_eq, Container.shownAt_inj known shared]
    simp only [Option.map_some, Option.bind_some, same, h.get_shownAt known]
    split
    · exact ⟨rfl, by simp [ClickPlan.Shared]⟩
    · exact ⟨rfl, by simpa [ClickPlan.Shared] using ⟨shared, known⟩⟩

/-! ### Drags -/

theorem withDrag (h : Mirrors windowId size plain shown) (drag : Option Drag)
    {drag' : Option Drag} (same : drag' = drag.map (·.shown size))
    (within : ∀ d ∈ drag, ∀ slot ∈ d.slots, slot ∈ sharedSlots) :
    Mirrors windowId size { plain with drag } { shown with drag := drag' } :=
  { h with drag := same, within }

theorem addSlot_shown (h : Mirrors windowId size plain shown)
    (numbered : Container.Numbered size) (reaches : Reaches number) {drag : Drag}
    (within : ∀ slot ∈ drag.slots, slot ∈ sharedSlots) (held : ItemStack) :
    (drag.shown size).addSlot shown.current held (shownNumber size number) =
        (drag.addSlot plain.current held number).shown size ∧
      ∀ slot ∈ (drag.addSlot plain.current held number).slots, slot ∈ sharedSlots := by
  unfold Drag.addSlot
  obtain ⟨there, here⟩ | ⟨index, shared, there, here⟩ := h.index? numbered reaches
  · rw [there, here]
    exact ⟨rfl, within⟩
  have same :
      (drag.shown size).slots.contains (shownAt size index) = drag.slots.contains index := by
    rw [Bool.eq_iff_iff, List.contains_iff_mem, List.contains_iff_mem, Drag.shown, List.mem_map]
    constructor
    · rintro ⟨slot, mem, named⟩
      rwa [(Container.shownAt_inj (within slot mem) shared).mp named] at mem
    · exact fun mem => ⟨index, mem, rfl⟩
  simp only [there, here, same, h.get_shownAt shared]
  split
  · refine ⟨by simp [Drag.shown], fun slot mem => ?_⟩
    obtain mem | mem := List.mem_append.mp mem
    · exact within slot mem
    · rwa [List.mem_singleton.mp mem]
  · exact ⟨rfl, within⟩

/-- What is dealt out over slots of the player is dealt out over those that show them. -/
theorem deal_shown (h : Mirrors windowId size plain shown) (item : ItemStack) (share : Int)
    {slots : List Nat} (within : ∀ slot ∈ slots, slot ∈ sharedSlots) (left : Int) :
    shown.current.deal item share (slots.map (shownAt size)) left =
        ((plain.current.deal item share slots left).1.map (·.shown size),
          (plain.current.deal item share slots left).2) ∧
      ∀ t ∈ (plain.current.deal item share slots left).1, t.slot ∈ sharedSlots := by
  induction slots generalizing left with
  | nil => exact ⟨rfl, by simp [Container.deal]⟩
  | cons slot slots ih =>
    obtain ⟨here, rest⟩ := List.forall_mem_cons.mp within
    simp only [List.map_cons, Container.deal, h.get_shownAt here]
    split
    · exact ih rest left
    · obtain ⟨dealt, shared⟩ := ih rest
        (left - min (min share (ItemStack.maxCount - (plain.current.get slot).size)) left)
      rw [dealt]
      exact ⟨rfl, List.forall_mem_cons.mpr ⟨here, shared⟩⟩

theorem finishDrag_shown (h : Mirrors windowId size plain shown) {drag : Drag}
    (within : ∀ slot ∈ drag.slots, slot ∈ sharedSlots) (held : ItemStack) :
    ClickPlan.Shows size (some (plain.finishDrag drag held))
      (some (shown.finishDrag (drag.shown size) held)) := by
  have share : (drag.shown size).share held.size = drag.share held.size := by
    simp only [Drag.share, Drag.shown, List.length_map]
  obtain ⟨dealt, shared⟩ := h.deal_shown held (drag.share held.size) within held.size
  refine ⟨congrArg some ?_, fun plan same => ?_⟩
  · unfold finishDrag
    rw [share, show (drag.shown size).slots = drag.slots.map (shownAt size) from rfl, dealt]
    rfl
  · cases same
    exact shared

/-- A click of a drag that adds no slot may name any number. -/
theorem dragClick_shown (h : Mirrors windowId size plain shown)
    (numbered : Container.Numbered size) {m : ClickWindow}
    (reaches : ∀ button, DragStep.ofNumber? m.button = some (.add button) → Reaches m.slot) :
    Mirrors windowId size (plain.dragClick m).1 (shown.dragClick (m.shown windowId size)).1 ∧
      ClickPlan.Shows size (plain.dragClick m).2 (shown.dragClick (m.shown windowId size)).2 := by
  have nothing : ClickPlan.Shows size none none := ⟨rfl, by simp⟩
  have button : (m.shown windowId size).button = m.button := rfl
  unfold dragClick
  rw [button]
  obtain ⟨player, window, cursor, drag⟩ := plain
  obtain ⟨player', window', cursor', drag'⟩ := shown
  obtain rfl : cursor' = cursor := h.cursor
  obtain rfl : drag' = drag.map (·.shown size) := h.drag
  have stopped := h.withDrag none rfl (by simp)
  cases cursor' with
  | none => exact ⟨stopped, nothing⟩
  | some held =>
    cases pressed : DragStep.ofNumber? m.button with
    | none => cases drag <;> exact ⟨stopped, nothing⟩
    | some step =>
      cases drag with
      | none =>
        cases step with
        | start button => exact ⟨h.withDrag (some ⟨button, []⟩) rfl (by simp), nothing⟩
        | add | finish => exact ⟨stopped, nothing⟩
      | some drag =>
        have inside := h.within drag rfl
        cases step with
        | start button => exact ⟨stopped, nothing⟩
        | add button =>
          have same : (drag.shown size).button = drag.button := rfl
          obtain ⟨added, shared⟩ := h.addSlot_shown numbered (reaches button pressed) inside held
          dsimp only [Option.map_some]
          rw [same]
          split
          · exact ⟨h.withDrag _ (congrArg some added) (by simpa using shared), nothing⟩
          · exact ⟨stopped, nothing⟩
        | finish button =>
          have same : (drag.shown size).button = drag.button := rfl
          have finished := h.finishDrag_shown inside held
          dsimp only [Option.map_some]
          rw [same]
          split
          · exact ⟨stopped, finished⟩
          · exact ⟨stopped, nothing⟩

/-! ### Clicks -/

theorem plan_shown (h : Mirrors windowId size plain shown) (other : windowId ≠ 0)
    (numbered : Container.Numbered size) {m : ClickWindow} (reaching : m.Reaching)
    (creative : Bool) :
    ∃ v w p q, plain.plan m creative = .ok (v, p) ∧
      shown.plan (m.shown windowId size) creative = .ok (w, q) ∧
      Mirrors windowId size v w ∧ ClickPlan.Shows size p q := by
  have mode : (m.shown windowId size).mode = m.mode := rfl
  have button : (m.shown windowId size).button = m.button := rfl
  have slot : (m.shown windowId size).slot = shownNumber size m.slot := rfl
  by_cases drags : m.mode = 5
  · obtain ⟨mirrors, shows⟩ := h.dragClick_shown numbered (m := m) fun button add =>
      reaching.slot.resolve_right fun none => none.2 button add
    exact ⟨_, _, _, _, plan_drag drags creative, plan_drag (mode.trans drags) creative, mirrors,
      shows⟩
  have reaches : Reaches m.slot := reaching.slot.resolve_right fun drag => drags drag.1
  have dragging : shown.drag.isSome = plain.drag.isSome := by rw [h.drag, Option.isSome_map]
  have outside : (shownNumber size m.slot = outsideSlot) = (m.slot = outsideSlot) :=
    propext (shownNumber_eq_outside numbered reaches)
  unfold plan
  simp only [mode, button, slot, dragging, beq_iff_eq, if_neg drags, outside]
  split
  · exact ⟨_, _, _, _, rfl, rfl, h.withDrag none rfl (by simp), rfl, by simp⟩
  have known := reaching.mode
  simp only [List.mem_cons, List.not_mem_nil, or_false, drags] at known
  obtain mode | mode | mode | mode := known
  all_goals simp only [mode]
  · refine ⟨_, _, _, _, rfl, rfl, h, ?_⟩
    split
    · exact h.shows_outsideClick
    · exact h.shows_plainClick numbered reaches
  · exact ⟨_, _, _, _, rfl, rfl, h, h.shows_numberClick other numbered reaches⟩
  · exact ⟨_, _, _, _, rfl, rfl, h, h.shows_middleClick numbered reaches creative⟩
  · refine ⟨_, _, _, _, rfl, rfl, h, ?_⟩
    split
    · exact h.shows_outsideClick
    · exact h.shows_dropClick numbered reaches

theorem make_shown (h : Mirrors windowId size plain shown) {plan : ClickPlan}
    (shared : plan.Shared) :
    Mirrors windowId size (plain.make plan) (shown.make (plan.shown size)) := by
  obtain ⟨stored, whole, outside⟩ :=
    Container.store_shown h.whole h.outside shared windowId size
  have front : (plain.player.store plan.slots).1.windowId = 0 :=
    (plain.player.layout_store plan.slots).1.trans h.player
  have made : plain.make plan =
      { plain with player := (plain.player.store plan.slots).1, cursor := plan.cursor.after } := by
    simp only [make, withCurrent, h.uncovered, h.current_plain]
  have seen : shown.make (plan.shown size) =
      { shown with
        window := some ((plain.player.store plan.slots).1.overPlayer windowId size)
        cursor := plan.cursor.after } := by
    simp only [make, withCurrent, h.window, h.current_shown, ClickPlan.shown, stored]
  rw [made, seen]
  exact ⟨front, whole, h.uncovered, rfl, outside, rfl, h.drag, h.within⟩

/-- A click keeps the two in step, and neither is refused. -/
theorem click_shown (h : Mirrors windowId size plain shown) (other : windowId ≠ 0)
    (numbered : Container.Numbered size) {m : ClickWindow} (reaching : m.Reaching)
    (creative : Bool) :
    ∃ o o', plain.click id m creative = .ok o ∧
      shown.click id (m.shown windowId size) creative = .ok o' ∧
      Mirrors windowId size o.inventory o'.inventory := by
  have front : m.windowId = plain.current.windowId := by
    rw [reaching.inFront, h.current_plain, h.player]
  have front' : (m.shown windowId size).windowId = shown.current.windowId := by
    rw [h.current_shown]
    rfl
  obtain ⟨v, w, p, q, planned, planned', mirrors, shows⟩ :=
    h.plan_shown other numbered reaching creative
  obtain rfl := shows.same
  cases p with
  | none => exact ⟨_, _, click_of_none front planned, click_of_none front' planned', mirrors⟩
  | some plan =>
    obtain ⟨replies, clicked⟩ := click_of_some front planned
    obtain ⟨replies', clicked'⟩ := click_of_some front' planned'
    exact ⟨_, _, clicked, clicked', mirrors.make_shown (shows.shared plan rfl)⟩

end Mirrors

/-! ## Runs -/

/-- The inventory after some clicks that no listener touches, each with whether its player is in
creative mode. -/
def clickAll (v : Inventory) : List (ClickWindow × Bool) → Except CodecError Inventory
  | [] => .ok v
  | (m, creative) :: clicks => do
    let outcome ← v.click id m creative
    outcome.inventory.clickAll clicks

/-- A window is in front for a while. The clicks are as they would be made without it. -/
structure Visit where
  windowId : UInt8
  size : Nat
  clicks : List (ClickWindow × Bool)

namespace Visit

/-- The clicks as they are made in the window. -/
def through (visit : Visit) : List (ClickWindow × Bool) :=
  visit.clicks.map fun (m, creative) => (m.shown visit.windowId visit.size, creative)

structure Fine (visit : Visit) : Prop where
  other : visit.windowId ≠ 0
  numbered : Container.Numbered visit.size
  reaching : ∀ click ∈ visit.clicks, click.1.Reaching

end Visit

/-- The inventory after clicks in one window after the other. The last window stays open. -/
def visitAll (v : Inventory) : List Visit → Except CodecError Inventory
  | [] => .ok v
  | visit :: visits => do
    let w ← (v.openWindow visit.windowId visit.size).clickAll visit.through
    w.visitAll visits

/-- The inventory after the same clicks without a window. Where a window would open a drag ends. -/
def stayAll (v : Inventory) : List Visit → Except CodecError Inventory
  | [] => .ok v
  | visit :: visits => do
    let w ← { v with drag := none }.clickAll visit.clicks
    w.stayAll visits

/-- An inventory without a window, and one that holds the same, perhaps behind a window. -/
structure Agrees (plain shown : Inventory) : Prop where
  player : plain.player.windowId = 0
  whole : plain.player.Whole
  uncovered : plain.window = none
  handedBack : shown.uncovered = plain.player
  cursor : shown.cursor = plain.cursor

variable {windowId : UInt8} {size : Nat} {plain shown : Inventory}

theorem Mirrors.agrees (h : Mirrors windowId size plain shown) : Agrees plain shown := by
  refine ⟨h.player, h.whole, h.uncovered, ?_, h.cursor⟩
  rw [Inventory.uncovered, h.window]
  exact Container.takeBack_overPlayer h.outside windowId size

theorem Agrees.openWindow (h : Agrees plain shown) (windowId : UInt8) (size : Nat) :
    Mirrors windowId size { plain with drag := none } (shown.openWindow windowId size) where
  player := h.player
  whole := h.whole
  uncovered := h.uncovered
  window := by
    rw [Inventory.openWindow, h.handedBack]
  outside := by
    rw [show (shown.openWindow windowId size).player = shown.uncovered from rfl, h.handedBack]
    exact .refl _
  cursor := h.cursor
  drag := rfl
  within := by simp

theorem Mirrors.clickAll (h : Mirrors windowId size plain shown) (other : windowId ≠ 0)
    (numbered : Container.Numbered size) {clicks : List (ClickWindow × Bool)}
    (reaching : ∀ click ∈ clicks, click.1.Reaching) :
    ∃ v w, plain.clickAll clicks = .ok v ∧
      shown.clickAll (clicks.map fun (m, creative) => (m.shown windowId size, creative)) = .ok w ∧
      Mirrors windowId size v w := by
  induction clicks generalizing plain shown with
  | nil => exact ⟨_, _, rfl, rfl, h⟩
  | cons click clicks ih =>
    obtain ⟨here, rest⟩ := List.forall_mem_cons.mp reaching
    obtain ⟨m, creative⟩ := click
    obtain ⟨o, o', clicked, clicked', next⟩ := h.click_shown other numbered here creative
    obtain ⟨v, w, done, done', mirrors⟩ := ih next rest
    simp only [List.map_cons, Inventory.clickAll, clicked, clicked']
    exact ⟨v, w, done, done', mirrors⟩

theorem Agrees.visit (h : Agrees plain shown) {visit : Visit} (fine : visit.Fine) :
    ∃ v w, { plain with drag := none }.clickAll visit.clicks = .ok v ∧
      (shown.openWindow visit.windowId visit.size).clickAll visit.through = .ok w ∧
      Mirrors visit.windowId visit.size v w :=
  (h.openWindow visit.windowId visit.size).clickAll fine.other fine.numbered fine.reaching

/-- From window to window the two agree, and in the last one they mirror each other. -/
theorem Agrees.visitAll (h : Agrees plain shown) {earlier : List Visit} {last : Visit}
    (fine : ∀ visit ∈ earlier ++ [last], visit.Fine) :
    ∃ v w, plain.stayAll (earlier ++ [last]) = .ok v ∧
      shown.visitAll (earlier ++ [last]) = .ok w ∧ Mirrors last.windowId last.size v w := by
  induction earlier generalizing plain shown with
  | nil =>
    obtain ⟨v, w, stayed, visited, mirrors⟩ := h.visit (fine last (by simp))
    refine ⟨v, w, ?_, ?_, mirrors⟩
    · simp only [List.nil_append, stayAll, stayed]
      rfl
    · simp only [List.nil_append, Inventory.visitAll, visited]
      rfl
  | cons visit earlier ih =>
    obtain ⟨here, rest⟩ := List.forall_mem_cons.mp fine
    obtain ⟨v, w, stayed, visited, mirrors⟩ := h.visit here
    obtain ⟨v', w', stayed', visited', mirrors'⟩ := ih mirrors.agrees rest
    simp only [List.cons_append, stayAll, Inventory.visitAll, stayed, visited]
    exact ⟨v', w', stayed', visited', mirrors'⟩

theorem Mirrors.closeWindow (h : Mirrors windowId size plain shown) :
    shown.closeWindow windowId = (plain.cursor, { plain with cursor := none, drag := none }) := by
  have front : shown.current.windowId = windowId := by
    rw [h.current_shown]
    rfl
  unfold Inventory.closeWindow
  rw [if_pos (beq_iff_eq.mpr front), h.agrees.handedBack, h.cursor, h.uncovered]

end Inventory

/-- **A window mirrors the player's inventory.** Clicks on slots that windows show do the same in a
window, under its numbers for them, as without it: the cursor, the drag that is going on and the
slots are the same, the window's own slots stay empty, and once it is closed the inventory is that
of the run without it. This holds for any windows that come one after the other, of which each ends
the drag of the one before. -/
theorem window_mirrors_player (v : Inventory) (player : v.player.windowId = 0)
    (whole : v.player.size = Container.playerSize) (uncovered : v.window = none)
    (idle : v.drag = none) (earlier : List Inventory.Visit) (last : Inventory.Visit)
    (fine : ∀ visit ∈ earlier ++ [last], visit.Fine) :
    ∃ plain shown, v.stayAll (earlier ++ [last]) = .ok plain ∧
      v.visitAll (earlier ++ [last]) = .ok shown ∧
      (earlier = [] → v.clickAll last.clicks = .ok plain) ∧
      shown.cursor = plain.cursor ∧
      shown.drag = plain.drag.map (·.shown last.size) ∧
      (∀ slot ∈ sharedSlots,
        shown.current.get (shownAt last.size slot) = plain.player.get slot) ∧
      (∀ slot < last.size, shown.current.get slot = none) ∧
      shown.closeWindow last.windowId =
        (plain.cursor, { plain with cursor := none, drag := none }) := by
  have start : v.Agrees v := by
    refine ⟨player, whole, uncovered, ?_, rfl⟩
    rw [Inventory.uncovered, uncovered]
  obtain ⟨plain, shown, stayed, visited, mirrors⟩ := start.visitAll fine
  refine ⟨plain, shown, stayed, visited, ?_, mirrors.cursor, mirrors.drag, fun slot shared => ?_,
    fun slot own => ?_, mirrors.closeWindow⟩
  · rintro rfl
    have same : { v with drag := none } = v := by rw [← idle]
    simp only [List.nil_append, Inventory.stayAll, same] at stayed
    cases clicked : v.clickAll last.clicks with
    | error e =>
      rw [clicked] at stayed
      cases stayed
    | ok w =>
      rw [clicked] at stayed
      exact stayed
  · rw [mirrors.get_shownAt shared, mirrors.current_plain]
  · rw [mirrors.current_shown, Container.get_overPlayer_own own]

/-- The first window sees a drag begin. In the second one the cursor's stones are put into the
hotbar, and a number key takes a hundred more there. -/
def Inventory.twoVisits : List Inventory.Visit :=
  [⟨7, 3, [(⟨0, -999, 0, 0, 5, none⟩, false), (⟨0, 20, 1, 0, 5, none⟩, false)]⟩,
    ⟨1, 27, [(⟨0, 36, 0, 0, 0, none⟩, false), (⟨0, 10, 3, 0, 2, none⟩, false)]⟩]

theorem chest_mirrors_stones :
    ∃ plain shown, Inventory.stones.stayAll Inventory.twoVisits = .ok plain ∧
      Inventory.stones.visitAll Inventory.twoVisits = .ok shown ∧
      shown.current.get 57 = some ⟨1, 100, 0, none⟩ ∧
      shown.closeWindow 1 = (none, { plain with cursor := none, drag := none }) := by
  have fine : ∀ visit ∈ Inventory.twoVisits, visit.Fine := by
    intro visit mem
    simp only [Inventory.twoVisits, List.mem_cons, List.not_mem_nil, or_false] at mem
    obtain rfl | rfl := mem
    all_goals
      refine ⟨by decide, by decide, fun click mem => ?_⟩
      simp only [List.mem_cons, List.not_mem_nil, or_false] at mem
      obtain rfl | rfl := mem
      all_goals exact ⟨rfl, by decide, .inl (by decide)⟩
  obtain ⟨plain, shown, stayed, visited, -, cursor, -, slots, -, closed⟩ :=
    window_mirrors_player Inventory.stones rfl rfl rfl rfl [_] _ fine
  have computed : ∃ w, Inventory.stones.stayAll Inventory.twoVisits = .ok w ∧ w.cursor = none ∧
      w.player.get 39 = some ⟨1, 100, 0, none⟩ := ⟨_, rfl, rfl, rfl⟩
  obtain ⟨w, same, empty, moved⟩ := computed
  obtain rfl := Except.ok.inj (same.symm.trans stayed)
  rw [empty] at closed
  exact ⟨w, shown, same, visited, (slots 39 (by decide)).trans moved, closed⟩

end VoxelServer
