import VoxelServer.Proofs.Inventory.Resync
import VoxelServer.Proofs.Inventory.Supply

/-!
# What the event of a click says

The event of a click is made of what a plan has looked up, and a drag has looked up its slots clicks
ago, maybe with other items in them. Whoever listens can still take it at its word:

* `Inventory.Use.Quiet`: listeners that leave events as they are, or cancel them;
* `Inventory.Stocked`: what all inventories have in common that come about with such listeners;
* `Inventory.Describes`: an event that tells what is there, and `Inventory.Follows`, an inventory
  after what the event says;
* `click_events_describe`: every event of a click does the one, and leads to the other unless it is
  cancelled.
-/

namespace VoxelServer

/-! ## Items -/

/-- Slots keep proper stacks of what has a tidy tree. -/
theorem Slot.proper_nonempty {slot : Slot} (tidy : ∀ item ∈ slot, item.Tidy) :
    slot.nonempty.Proper := by
  cases slot with
  | none => exact Slot.proper_none
  | some item =>
    by_cases positive : 0 < item.size
    · rw [show Slot.nonempty (some item) = some item from if_pos positive, Slot.proper_some]
      exact ⟨tidy item rfl, positive⟩
    · rw [show Slot.nonempty (some item) = none from if_neg positive]
      exact Slot.proper_none

namespace Inventory

variable {v w : Inventory} {m : ClickWindow} {creative : Bool} {e : ClickEvent}

/-! ## Runs -/

/-- Listeners leave events as they are or cancel them, the compounds of stacks from the supply have
one entry under each name, and windows have other numbers than the player's inventory. -/
def Use.Quiet : Use → Prop
  | .click post _ _ => ∀ e, post e = { e with cancelled := (post e).cancelled }
  | .creative post m => (∀ e, post e = { e with cancelled := (post e).cancelled }) ∧
      ∀ item ∈ m.item, item.Tidy
  | .openWindow windowId _ => windowId ≠ 0
  | .closeWindow _ => True

theorem Reachable.apply (reachable : v.Reachable) (use : Use) : (use.apply v).Reachable := by
  cases use with
  | click post m isCreative =>
    unfold Use.apply
    dsimp only
    split
    · rename_i outcome clicked
      exact reachable.click clicked
    · exact reachable
  | creative post m =>
    unfold Use.apply
    dsimp only
    split
    · rename_i outcome taken
      exact reachable.creative taken
    · exact reachable
  | openWindow windowId size => exact reachable.openWindow windowId size
  | closeWindow windowId => exact reachable.closeWindow windowId

/-- Every stack is proper, also under a window, and windows have numbers of their own. -/
structure Stocked (v : Inventory) : Prop where
  reachable : v.Reachable
  slots : v.Each Slot.Proper
  cursor : v.cursor.Proper
  numbered : ∀ window ∈ v.window, window.windowId ≠ 0

theorem stocked_empty : Inventory.empty.Stocked where
  reachable := .empty
  slots := ⟨Container.each_player Slot.proper_none, by simp [Inventory.empty]⟩
  cursor := Slot.proper_none
  numbered := by simp [Inventory.empty]

theorem Stocked.dragging (h : v.Stocked) : v.Dragging :=
  h.reachable.dragging h.cursor (h.slots.current.get Slot.proper_none) h.numbered

/-- What is finished keeps the number of the window. -/
theorem numbered_finish (numbered : ∀ window ∈ v.window, window.windowId ≠ 0) (e : ClickEvent)
    (action : Int16) : ∀ window ∈ (v.finish e action).1.window, window.windowId ≠ 0 := by
  obtain ⟨player, window, cursor, drag⟩ := v
  unfold Inventory.finish
  dsimp only
  split
  · exact numbered
  · cases window with
    | none => simp [withCurrent]
    | some shown =>
      intro window same
      obtain rfl := Option.mem_some_iff.mp same
      have kept : (shown.store e.slots).1.windowId = shown.windowId :=
        (shown.layout_store e.slots).1
      exact fun same => numbered shown rfl (kept.symm.trans same)

/-! ## Events -/

/-- An event of a click that tells what is on the cursor and in different slots of the current
container, and puts proper stacks there. -/
structure Describes (v : Inventory) (e : ClickEvent) : Prop where
  windowId : e.windowId = v.current.windowId
  before : e.cursor.before = v.cursor
  after : e.cursor.after.Proper
  slots : v.current.Faithful e.slots

theorem describes_of_clickEvent? (h : v.Dragging) (made : v.clickEvent? m creative = some e) :
    v.Describes e := by
  obtain ⟨-, w, plan, planned, rfl⟩ := plan_of_clickEvent? made
  obtain ⟨-, before, after, slots⟩ := faithful_of_plan h planned
  exact ⟨rfl, before, after, slots⟩

theorem Describes.cancel (h : v.Describes e) (cancelled : Bool) :
    v.Describes { e with cancelled } :=
  ⟨h.windowId, h.before, h.after, h.slots⟩

/-- The inventory after an event that counts. The cursor and the slots that the event names hold
what it says, and everything else is as it was, except that no drag is going on. -/
structure Follows (v : Inventory) (e : ClickEvent) (w : Inventory) : Prop where
  rest : w = { v.withCurrent w.current with cursor := e.cursor.after, drag := none }
  layout : w.current.windowId = v.current.windowId ∧ w.current.own = v.current.own ∧
    w.current.size = v.current.size
  named : ∀ t ∈ e.slots, w.current.get t.slot = t.after
  others : ∀ slot, (∀ t ∈ e.slots, t.slot ≠ slot) → w.current.get slot = v.current.get slot

theorem follows_finish (h : v.Describes e) (counts : e.cancelled = false) (action : Int16) :
    v.Follows e (Inventory.finish { v with drag := none } e action).1 := by
  have finished : (Inventory.finish { v with drag := none } e action).1 =
      { v.withCurrent (v.current.store e.slots).1 with
        cursor := e.cursor.after, drag := none } := by
    obtain ⟨player, window, cursor, drag⟩ := v
    unfold Inventory.finish
    simp only [counts, Bool.false_eq_true, if_false]
    cases window <;> rfl
  have current : (Inventory.finish { v with drag := none } e action).1.current =
      (v.current.store e.slots).1 := by
    rw [finished]
    exact v.current_withCurrent _
  refine ⟨?_, ?_, fun t ht => ?_, fun slot other => ?_⟩
  · rw [current, finished]
  · rw [current]
    exact v.current.layout_store e.slots
  · rw [current]
    exact Container.get_store_of_mem h.slots ht
  · rw [current]
    exact Container.get_store_of_not_mem h.slots other

/-! ## What every run keeps -/

/-- One use, with listeners that at most cancel it. -/
theorem Stocked.apply (h : v.Stocked) {use : Use} (quiet : use.Quiet) : (use.apply v).Stocked := by
  have reachable := h.reachable.apply use
  cases use with
  | click post m isCreative =>
    obtain ⟨drag, same⟩ := v.apply_click post m isCreative
    have slots : Inventory.Each Slot.Proper { v with drag } := h.slots.congr rfl rfl
    cases made : v.clickEvent? m isCreative with
    | none =>
      rw [made] at same
      rw [same] at reachable ⊢
      exact ⟨reachable, slots, h.cursor, h.numbered⟩
    | some e =>
      rw [made] at same
      rw [same] at reachable ⊢
      have described : v.Describes (post e) :=
        quiet e ▸ (describes_of_clickEvent? h.dragging made).cancel _
      have numbered := numbered_finish (v := { v with drag }) h.numbered (post e) m.action
      refine ⟨reachable, slots.finish _ m.action fun t ht => ?_, ?_, numbered⟩
      · have proper := (described.slots.allowed t ht).proper
        rw [proper.nonempty]
        exact proper
      · rw [cursor_finish]
        split
        · exact h.cursor
        · exact described.after
  | creative post m =>
    obtain ⟨watched, tidy⟩ := quiet
    obtain ⟨ts, same, stored⟩ := v.apply_creative post m
    rw [same] at reachable ⊢
    refine ⟨reachable, ⟨h.slots.player.store fun t ht => ?_, h.slots.window⟩, h.cursor,
      h.numbered⟩
    obtain ⟨e, made, mem⟩ := stored t ht
    rw [watched e] at mem
    obtain ⟨-, none⟩ | ⟨slot, -, -, -, one⟩ := slots_of_creativeEvent made
    · rw [none] at mem
      cases mem
    · rw [one] at mem
      rw [List.mem_singleton.mp mem]
      exact Slot.proper_nonempty tidy
  | openWindow windowId size =>
    refine ⟨reachable, h.slots.openWindow Slot.proper_none windowId size, h.cursor,
      fun window same => ?_⟩
    obtain rfl := Option.mem_some_iff.mp same
    exact quiet
  | closeWindow windowId =>
    refine ⟨reachable, h.slots.closeWindow windowId, ?_, ?_⟩
    all_goals
      simp only [Use.apply, Inventory.closeWindow]
      split
    · exact Slot.proper_none
    · exact h.cursor
    · simp
    · exact h.numbered

theorem Stocked.useAll (h : v.Stocked) {uses : List Use} (quiet : ∀ use ∈ uses, use.Quiet) :
    (v.useAll uses).Stocked := by
  induction uses generalizing v with
  | nil => exact h
  | cons use uses ih =>
    obtain ⟨first, rest⟩ := List.forall_mem_cons.mp quiet
    exact ih (h.apply first) rest

end Inventory

/-- **The event of a click describes the container.** After any run with listeners that at most
cancel events, a drag has different slots of the current container. If a click makes an event, this
tells what is on the cursor and in different slots of the current container. If it is not cancelled
the cursor and these slots get what it says, and all others stay as they are, in the window as well
as under it. A click that is cancelled or makes no event at most changes the drag, and one that is
refused changes nothing. -/
theorem click_events_describe (uses : List Inventory.Use) (quiet : ∀ use ∈ uses, use.Quiet)
    (post : ClickEvent → ClickEvent) (m : ClickWindow) (creative : Bool)
    (watched : (Inventory.Use.click post m creative).Quiet) :
    let v := Inventory.empty.useAll uses
    (∀ drag ∈ v.drag, drag.slots.Nodup ∧ ∀ slot ∈ drag.slots, slot < v.current.size) ∧
    (∀ e ∈ v.clickEvent? m creative, v.Describes e) ∧
    match v.click post m creative with
    | .error _ => v.drag = none ∧ Inventory.Use.apply v (.click post m creative) = v
    | .ok o => o.event = (v.clickEvent? m creative).map post ∧
      match o.event with
      | none => o.inventory = { v with drag := o.inventory.drag }
      | some e =>
        if e.cancelled then o.inventory = { v with drag := none } else v.Follows e o.inventory := by
  intro v
  have dragging := (Inventory.stocked_empty.useAll quiet).dragging
  refine ⟨fun drag going => ⟨dragging.distinct drag going, dragging.inside drag going⟩,
    fun e made => Inventory.describes_of_clickEvent? dragging made, ?_⟩
  obtain ⟨-, still, refusal, refused⟩ | ⟨unplanned, drag, clicked⟩ | ⟨e, made, clicked⟩ :=
    v.click_answers post m creative
  · have same : Inventory.Use.apply v (.click post m creative) = v := by
      simp only [Inventory.Use.apply, refused]
    rw [refused]
    exact ⟨still, same⟩
  · rw [clicked, unplanned]
    exact ⟨rfl, rfl⟩
  · have described : v.Describes (post e) :=
      watched e ▸ (Inventory.describes_of_clickEvent? dragging made).cancel _
    rw [clicked, made]
    refine ⟨rfl, ?_⟩
    cases cancelled : (post e).cancelled with
    | true => simp [Inventory.finish, cancelled]
    | false =>
      simp only [cancelled, Bool.false_eq_true, if_false]
      exact Inventory.follows_finish described cancelled m.action

/-- Ten stones from the creative mode's supply, picked up in front of a chest and dragged over two
of its slots, one of them twice. -/
def Inventory.draggedStones : List Inventory.Use :=
  let drag (slot : Int16) (button : Int8) : Inventory.Use :=
    .click id ⟨1, slot, button, 2, 5, none⟩ false
  [.creative id ⟨36, some ⟨1, 10, 0, none⟩⟩, .openWindow 1 27,
    .click id ⟨1, 54, 0, 1, 0, none⟩ false, drag (-999) 0, drag 3 1, drag 8 1, drag 3 1]

/-- The end of the drag deals them out. -/
theorem dragged_stones_are_described :
    let v := Inventory.empty.useAll Inventory.draggedStones
    ∃ o e, v.click id ⟨1, -999, 2, 3, 5, none⟩ false = .ok o ∧ o.event = some e ∧
      v.Describes e ∧ e.slots.map (fun t => (t.slot, t.after.size)) = [(3, 5), (8, 5)] ∧
      v.Follows e o.inventory := by
  have quiet : ∀ use ∈ Inventory.draggedStones, use.Quiet := by
    simp [Inventory.draggedStones, Inventory.Use.Quiet, ItemStack.Tidy]
  have described := click_events_describe Inventory.draggedStones quiet id
    ⟨1, -999, 2, 3, 5, none⟩ false fun _ => rfl
  have going : (Inventory.empty.useAll Inventory.draggedStones).drag.isSome = true := by
    decide +kernel
  have dealt : ((Inventory.empty.useAll Inventory.draggedStones).clickEvent?
      ⟨1, -999, 2, 3, 5, none⟩ false).map
        (fun e => (e.cancelled, e.slots.map fun t => (t.slot, t.after.size))) =
          some (false, [(3, 5), (8, 5)]) := by
    decide +kernel
  generalize Inventory.empty.useAll Inventory.draggedStones = v at *
  obtain ⟨-, describes, outcome⟩ := described
  obtain ⟨e, made, said⟩ := Option.map_eq_some_iff.mp dealt
  obtain ⟨counts, slots⟩ := Prod.mk.inj said
  cases clicked : v.click id ⟨1, -999, 2, 3, 5, none⟩ false with
  | error refusal =>
    rw [clicked] at outcome
    simp [outcome.1] at going
  | ok o =>
    rw [clicked, made] at outcome
    obtain ⟨event, followed⟩ := outcome
    rw [event] at followed
    simp only [Option.map_some, id, counts, Bool.false_eq_true, if_false] at followed
    exact ⟨o, e, clicked, event, describes e made, slots, followed⟩

end VoxelServer
