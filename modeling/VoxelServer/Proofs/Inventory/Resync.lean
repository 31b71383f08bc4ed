import VoxelServer.Proofs.Inventory.Drags
import VoxelServer.Proofs.Inventory.Uncovering

/-!
# Clients after a click

A client shows what it takes a click to do before it hears about it, and may be wrong. The answer
puts it right, whether the click counts or not:

* `Inventory.Tracked`: what is known of the drag of any inventory, and `Reachable.tracked`;
* `Inventory.Settles`: a click that is answered changes only the slots its event names, and the
  answer tells what is in these now;
* `ClientView`: what a client shows, and `ClientView.receive`, what a reply makes of it;
* `click_replies_resync`: a client that shows the right thing elsewhere shows the right thing after
  the answer.
-/

namespace VoxelServer

namespace Container

variable {c : Container} {ts : List SlotTransaction}

/-- All transactions of a plan are made. -/
theorem stored_of_faithful (h : c.Faithful ts) : (c.store ts).2 = ts := by
  induction ts generalizing c with
  | nil => rfl
  | cons t ts ih => rw [(store_cons (h.allowed t List.mem_cons_self) ts).2, ih h.rest]

theorem getElem?_slots {slot : Nat} (inside : slot < c.size) :
    c.slots[slot]? = some (c.get slot) := by
  have inside : slot < c.slots.length := inside
  simp [get, inside]

end Container

namespace Inventory

variable {v w : Inventory} {m : ClickWindow} {creative : Bool}

theorem current_congr (player : w.player = v.player) (window : w.window = v.window) :
    w.current = v.current := by
  rw [current, current, player, window]

/-! ## Drags of any inventory -/

/-- The player's inventory has its number, and a drag, if there is one, goes across different slots
of the container in front. -/
structure Tracked (v : Inventory) : Prop where
  player : v.player.windowId = 0
  distinct : ∀ drag ∈ v.drag, drag.slots.Nodup
  inside : ∀ drag ∈ v.drag, ∀ slot ∈ drag.slots, slot < v.current.size

theorem Tracked.congr (h : v.Tracked) (player : w.player.windowId = v.player.windowId)
    (size : w.current.size = v.current.size) (drag : w.drag = v.drag) : w.Tracked :=
  ⟨player.trans h.player, drag ▸ h.distinct, by rw [drag, size]; exact h.inside⟩

theorem Tracked.withDrag (h : v.Tracked) {drag : Option Drag} (distinct : ∀ d ∈ drag, d.slots.Nodup)
    (inside : ∀ d ∈ drag, ∀ slot ∈ d.slots, slot < v.current.size) :
    Tracked { v with drag } :=
  ⟨h.player, distinct, inside⟩

theorem Tracked.stopped (h : v.Tracked) : Tracked { v with drag := none } :=
  h.withDrag (by simp) (by simp)

theorem Tracked.dragClick (h : v.Tracked) (m : ClickWindow) : (v.dragClick m).1.Tracked := by
  unfold Inventory.dragClick
  dsimp only
  split
  · exact h.stopped
  rename_i held _
  split
  · exact h.withDrag (by simp) (by simp)
  · rename_i drag _ going _
    split
    · obtain ⟨distinct, inside⟩ := addSlot_fits held m.slot (h.distinct drag going)
        (h.inside drag going)
      exact h.withDrag (by simpa using distinct) (by simpa using inside)
    · exact h.stopped
  · split <;> exact h.stopped
  · exact h.stopped

theorem Tracked.planned (h : v.Tracked) {plan : Option ClickPlan}
    (planned : v.plan m creative = .ok (w, plan)) : w.Tracked := by
  by_cases drags : m.mode = 5
  · rw [plan_drag drags] at planned
    obtain rfl : (v.dragClick m).1 = w := congrArg Prod.fst (Except.ok.inj planned)
    exact h.dragClick m
  · cases plan with
    | none =>
      rw [plan_of_none drags planned]
      exact h.stopped
    | some plan =>
      rw [(plan_cases drags planned).1]
      exact h

/-- What is stored does not change how large a container is. -/
theorem Tracked.finish (h : v.Tracked) (e : ClickEvent) (action : Int16) :
    (v.finish e action).1.Tracked := by
  obtain ⟨player, window, cursor, drag⟩ := v
  unfold Inventory.finish
  dsimp only
  split
  · exact h
  · cases window with
    | none =>
      obtain ⟨windowId, -, size⟩ := player.layout_store e.slots
      exact h.congr windowId size rfl
    | some window => exact h.congr rfl (window.layout_store e.slots).2.2 rfl

theorem Tracked.click (h : v.Tracked) {post : ClickEvent → ClickEvent}
    {outcome : Outcome ClickEvent} (clicked : v.click post m creative = .ok outcome) :
    outcome.inventory.Tracked := by
  obtain rfl | ⟨w, planned, rfl⟩ | ⟨w, plan, planned, rfl⟩ := click_cases clicked
  · exact h
  · exact h.planned planned
  · exact (h.planned planned).finish _ m.action

theorem Tracked.withPlayer (h : v.Tracked) {player : Container}
    (windowId : player.windowId = v.player.windowId) (size : player.size = v.player.size) :
    Tracked { v with player } := by
  obtain ⟨player, window, cursor, drag⟩ := v
  cases window with
  | none => exact h.congr windowId size rfl
  | some window => exact h.congr windowId rfl rfl

theorem windowId_uncovered (v : Inventory) : v.uncovered.windowId = v.player.windowId := by
  unfold uncovered
  split <;> rfl

theorem Reachable.tracked (reachable : v.Reachable) : v.Tracked := by
  induction reachable with
  | empty => exact ⟨rfl, by simp [Inventory.empty], by simp [Inventory.empty]⟩
  | click _ clicked tracked => exact tracked.click clicked
  | creative _ taken tracked =>
    obtain ⟨player, same, windowId, size⟩ := player_of_creative taken
    rw [same]
    exact tracked.withPlayer windowId size
  | @openWindow v _ windowId size tracked =>
    exact ⟨v.windowId_uncovered.trans tracked.player, by simp [Inventory.openWindow],
      by simp [Inventory.openWindow]⟩
  | @closeWindow v _ windowId tracked =>
    unfold Inventory.closeWindow
    split
    · exact ⟨v.windowId_uncovered.trans tracked.player, by simp, by simp⟩
    · exact tracked
  | set _ set tracked =>
    unfold Container.set? at set
    split at set
    · cases set
      exact tracked.withPlayer rfl List.length_set
    · cases set
  | cursor _ cursor tracked => exact tracked.congr rfl rfl rfl

/-- Any inventory with proper stacks is one that clicks can be planned for. -/
theorem Reachable.dragging (reachable : v.Reachable) (cursor : v.cursor.Proper)
    (slots : v.current.StacksProper) (windows : ∀ window ∈ v.window, window.windowId ≠ 0) :
    v.Dragging := by
  have tracked := reachable.tracked
  have laid := reachable.laid
  refine ⟨⟨?_, cursor, slots⟩, tracked.distinct, tracked.inside⟩
  obtain ⟨player, window, cursor, drag⟩ := v
  cases window with
  | none => exact .inl ⟨tracked.player, laid.player⟩
  | some window => exact .inr ⟨windows window rfl, laid.window window rfl⟩

/-! ## What a click settles -/

/-- A plan leaves everything in its place and says what is there. -/
theorem faithful_of_plan (h : v.Dragging) {plan : ClickPlan}
    (planned : v.plan m creative = .ok (w, some plan)) :
    w.cursor = v.cursor ∧ plan.Faithful v := by
  by_cases drags : m.mode = 5
  · rw [plan_drag drags] at planned
    have result := Except.ok.inj planned
    obtain ⟨-, -, cursor, nothing | ⟨drag, held, going, holds, finished⟩⟩ := stepped_dragClick h m
    · rw [result] at nothing
      cases nothing
    · rw [result] at cursor finished
      cases finished
      exact ⟨cursor, (finishDrag_spec h going holds).1⟩
  · obtain ⟨rfl, -, plans⟩ := plan_cases drags planned
    exact ⟨rfl, (sound_of_plan h.proper plans).faithful⟩

/-- What an event that names slots of the current container leads to, and what is said of it. -/
structure Settles (v : Inventory) (e : ClickEvent) (action : Int16) (w : Inventory)
    (replies : List Reply) : Prop where
  inside : ∀ t ∈ e.slots, t.slot < v.current.size
  size : w.current.size = v.current.size
  elsewhere : ∀ slot, (∀ t ∈ e.slots, t.slot ≠ slot) → w.current.get slot = v.current.get slot
  replies : replies =
    .cursor w.cursor ::
      e.slots.map (fun t => .slot e.windowId.toInt8 t.slot (w.current.get t.slot)) ++
      [.confirm ⟨e.windowId.toInt8, action, !e.cancelled⟩]
  undone : e.cancelled = true → w.player = v.player ∧ w.window = v.window ∧ w.cursor = v.cursor

theorem settles_finish {e : ClickEvent} (faithful : v.current.Faithful e.slots) (action : Int16) :
    v.Settles e action (v.finish e action).1 (v.finish e action).2 := by
  have inside : ∀ t ∈ e.slots, t.slot < v.current.size := fun t ht => (faithful.allowed t ht).inside
  unfold finish
  cases cancelled : e.cancelled with
  | true => exact ⟨inside, rfl, fun _ _ => rfl, by simp [cancelled], fun _ => ⟨rfl, rfl, rfl⟩⟩
  | false =>
    have current : Inventory.current
        { v.withCurrent (v.current.store e.slots).1 with cursor := e.cursor.after } =
          (v.current.store e.slots).1 := v.current_withCurrent _
    refine ⟨inside, ?_, fun slot other => ?_, ?_, by simp [cancelled]⟩
    · exact (congrArg Container.size current).trans (v.current.layout_store e.slots).2.2
    · exact (congrArg (Container.get · slot) current).trans
        (Container.get_store_of_not_mem faithful other)
    · have told : (v.current.store e.slots).2.map
            (fun t => Reply.slot e.windowId.toInt8 t.slot t.after) =
          e.slots.map fun t => Reply.slot e.windowId.toInt8 t.slot
            ((v.current.store e.slots).1.get t.slot) := by
        rw [Container.stored_of_faithful faithful]
        exact List.map_congr_left fun t ht => by rw [Container.get_store_of_mem faithful ht]
      simp [cancelled, current, told]

theorem settles_of_click (h : v.Dragging) {post : ClickEvent → ClickEvent}
    (keeps : ∀ e, (post e).slots = e.slots) {outcome : Outcome ClickEvent}
    (clicked : v.click post m creative = .ok outcome) (answered : outcome.replies ≠ []) :
    ∃ e, e.windowId = v.current.windowId ∧ outcome.event = some (post e) ∧
      v.Settles (post e) m.action outcome.inventory outcome.replies := by
  obtain rfl | ⟨w, -, rfl⟩ | ⟨w, plan, planned, rfl⟩ := click_cases clicked
  · exact absurd rfl answered
  · exact absurd rfl answered
  · obtain ⟨player, window⟩ := same_of_plan planned
    obtain ⟨cursor, -, -, faithful⟩ := faithful_of_plan h planned
    have current := current_congr player window
    refine ⟨_, rfl, rfl, ?_⟩
    generalize made : (⟨v.current.windowId, plan.kind, plan.cursor, plan.slots, false⟩ :
      ClickEvent) = e
    have named : (post e).slots = plan.slots := (keeps e).trans (made ▸ rfl)
    rw [← current, ← named] at faithful
    obtain ⟨inside, size, elsewhere, replies, undone⟩ := settles_finish faithful m.action
    rw [player, window, cursor] at undone
    rw [current] at inside size elsewhere
    exact ⟨inside, size, elsewhere, replies, undone⟩

end Inventory

/-! ## Clients -/

/-- What a client shows of its inventory: the window in front and the item on the cursor. -/
structure ClientView where
  windowId : Int8
  slots : List Slot
  cursor : Slot

namespace ClientView

/-- The view after a reply. -/
def receive (view : ClientView) : Reply → ClientView
  | .setSlot m =>
    if m.windowId = -1 ∧ m.slot = -1 then { view with cursor := m.item }
    else if m.windowId = view.windowId ∧ 0 ≤ m.slot.toInt then
      { view with slots := view.slots.set m.slot.toInt.toNat m.item }
    else view
  | .confirm _ => view

def receiveAll (view : ClientView) (replies : List Reply) : ClientView :=
  replies.foldl receive view

variable {view : ClientView}

/-- A reply about a slot puts that slot right, and no other. -/
theorem receive_slot {slot : Nat} (numbered : slot < 2 ^ 15) (item : Slot) :
    view.receive (.slot view.windowId slot item) =
      { view with slots := view.slots.set slot item } := by
  have number : (Int16.ofNat slot).toInt = slot := Int16.toInt_ofNat_of_lt numbered
  have other : Int16.ofNat slot ≠ -1 := by
    intro same
    have negative : (-1 : Int16).toInt = -1 := rfl
    rw [same, negative] at number
    omega
  simp only [receive, Reply.slot, other, and_false, if_false, number]
  rw [if_pos ⟨trivial, Int.natCast_nonneg slot⟩, Int.toNat_natCast]

theorem receive_cursor (item : Slot) :
    view.receive (.cursor item) = { view with cursor := item } := rfl

/-- Replies about some slots put these right, whatever the view had in them. -/
theorem receiveAll_slots {names : List Nat} (numbered : ∀ n ∈ names, n < 2 ^ 15)
    (items : Nat → Slot) :
    ∃ slots, view.receiveAll (names.map fun n => .slot view.windowId n (items n)) =
        { view with slots } ∧ slots.length = view.slots.length ∧
      ∀ i < view.slots.length,
        slots[i]? = if i ∈ names then some (items i) else view.slots[i]? := by
  induction names generalizing view with
  | nil => exact ⟨view.slots, rfl, rfl, by simp⟩
  | cons n names ih =>
    obtain ⟨slots, received, length, content⟩ :=
      @ih { view with slots := view.slots.set n (items n) }
        fun m hm => numbered m (List.mem_cons_of_mem _ hm)
    refine ⟨slots, ?_, length.trans List.length_set, fun i inside => ?_⟩
    · rw [List.map_cons, receiveAll, List.foldl_cons,
        receive_slot (numbered n List.mem_cons_self)]
      exact received
    · rw [content i (by simpa using inside)]
      by_cases named : i ∈ names
      · simp [named]
      · by_cases here : i = n
        · subst here
          simp [named, inside]
        · simp [named, here, Ne.symm here]

/-- The view shows what an inventory holds, and has the same number of slots, but for some slots
and the cursor. -/
structure AgreesExcept (view : ClientView) (names : List Nat) (v : Inventory) : Prop where
  length : view.slots.length = v.current.size
  elsewhere : ∀ slot < v.current.size, slot ∉ names → view.slots[slot]? = v.current.slots[slot]?

/-- The answer to a click puts the slots right that the click may have changed, and the cursor. -/
theorem receiveAll_of_settles {v w : Inventory} {e : ClickEvent} {action : Int16}
    {replies : List Reply} (settles : v.Settles e action w replies)
    (numbered : v.current.size ≤ 2 ^ 15) (front : view.windowId = e.windowId.toInt8)
    (agrees : view.AgreesExcept (e.slots.map (·.slot)) v) :
    view.receiveAll replies = ⟨view.windowId, w.current.slots, w.cursor⟩ := by
  have small : ∀ n ∈ e.slots.map (·.slot), n < 2 ^ 15 := by
    intro n hn
    obtain ⟨t, ht, rfl⟩ := List.mem_map.mp hn
    exact Nat.lt_of_lt_of_le (settles.inside t ht) numbered
  obtain ⟨slots, received, length, content⟩ :=
    @receiveAll_slots { view with cursor := w.cursor } _ small w.current.get
  have right : slots = w.current.slots := by
    refine List.ext_getElem? fun i => ?_
    by_cases inside : i < v.current.size
    · rw [content i (agrees.length ▸ inside), Container.getElem?_slots (settles.size ▸ inside)]
      split
      · rfl
      · rename_i other
        have kept := settles.elsewhere i fun t ht same => other (same ▸ List.mem_map_of_mem ht)
        rw [agrees.elsewhere i inside other, Container.getElem?_slots inside, kept]
    · have beyond : w.current.slots.length ≤ i :=
        Nat.le_trans (Nat.le_of_eq settles.size) (Nat.le_of_not_lt inside)
      rw [List.getElem?_eq_none, List.getElem?_eq_none beyond]
      rw [length, agrees.length]
      exact Nat.le_of_not_lt inside
  rw [List.map_map, right] at received
  rw [settles.replies, ← front]
  simp only [receiveAll, List.foldl_append, List.foldl_cons, List.foldl_nil, receive_cursor]
  exact congrArg (receive · _) received

end ClientView

/-- **The answer to a click puts the client right.** If listeners leave the transactions alone, and
at most cancel them, a click that is answered at all is answered with the cursor, with each slot the
event names, in order, as it is now, and with a confirmation that repeats the number of the click
and tells whether it counts. A client with the event's window in front, which is the one clicked
unless listeners renumber it, that showed the right thing in every other slot then shows what the
inventory holds. A click that was cancelled has changed no slot and not the cursor. -/
theorem click_replies_resync (v : Inventory) (reachable : v.Reachable)
    (cursor : v.cursor.Proper) (slots : v.current.StacksProper)
    (windows : ∀ window ∈ v.window, window.windowId ≠ 0) (numbered : v.current.size ≤ 2 ^ 15)
    (post : ClickEvent → ClickEvent) (keeps : ∀ e, (post e).slots = e.slots) (m : ClickWindow)
    (creative : Bool) (outcome : Outcome ClickEvent)
    (clicked : v.click post m creative = .ok outcome) (answered : outcome.replies ≠ []) :
    let w := outcome.inventory
    ∃ e, outcome.event = some e ∧
      outcome.replies =
        .cursor w.cursor ::
          e.slots.map (fun t => .slot e.windowId.toInt8 t.slot (w.current.get t.slot)) ++
          [.confirm ⟨e.windowId.toInt8, m.action, !e.cancelled⟩] ∧
      ((∀ e, (post e).windowId = e.windowId) → e.windowId = v.current.windowId) ∧
      (∀ view : ClientView, view.windowId = e.windowId.toInt8 →
        view.AgreesExcept (e.slots.map (·.slot)) v →
          view.receiveAll outcome.replies = ⟨view.windowId, w.current.slots, w.cursor⟩) ∧
      (e.cancelled = true → w.player = v.player ∧ w.window = v.window ∧ w.cursor = v.cursor) := by
  have dragging := reachable.dragging cursor slots windows
  obtain ⟨e, front, event, settles⟩ :=
    Inventory.settles_of_click dragging keeps clicked answered
  refine ⟨post e, event, settles.replies, fun addressed => (addressed e).trans front,
    fun view shown agrees => ?_, settles.undone⟩
  exact ClientView.receiveAll_of_settles settles numbered shown agrees

/-- A shift click on a hundred stones is cancelled. A client that has cleared their slot and dropped
the item on the cursor gets both back. -/
theorem cancelled_click_gives_stones_back :
    ∃ outcome, Inventory.stones.click (fun e => { e with cancelled := true })
        ⟨0, 10, 0, 1, 1, none⟩ false = .ok outcome ∧
      outcome.inventory.player = Inventory.stones.player ∧
      (ClientView.mk 0 (Inventory.stones.current.slots.set 10 none) none).receiveAll
          outcome.replies =
        ⟨0, Inventory.stones.current.slots, some ⟨1, 5, 0, none⟩⟩ := by
  have reachable : Inventory.stones.Reachable :=
    .cursor (@Inventory.Reachable.set _ .empty 10 (some ⟨1, 100, 0, none⟩) _ rfl) _
  refine ⟨_, rfl, rfl, ?_⟩
  obtain ⟨e, event, -, -, resync, -⟩ :=
    click_replies_resync Inventory.stones reachable proper_stones.cursor
      proper_stones.slots (by simp [Inventory.stones, Inventory.empty]) (by decide)
      (fun e => { e with cancelled := true }) (fun _ => rfl) ⟨0, 10, 0, 1, 1, none⟩ false _ rfl
      (List.cons_ne_nil _ _)
  obtain rfl := Option.some.inj event
  refine resync _ rfl ⟨rfl, fun slot _ other => List.getElem?_set_ne ?_⟩
  rintro rfl
  exact other (by decide)

end VoxelServer
