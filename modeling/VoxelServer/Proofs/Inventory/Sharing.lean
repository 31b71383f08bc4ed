import Mathlib.Data.List.Induction
import VoxelServer.Proofs.Inventory.Filling
import VoxelServer.Proofs.Inventory.Mirroring

/-!
# Sharing a stack out

A drag goes across slots, click by click, and deals out the stack on the cursor when it ends. Any
slot may be named, also more than once:

* `Container.dragged`: the slots that a drag reaches;
* `Inventory.clickAll_adds`: what is known of a drag while it is going on;
* `Container.deal_eq_pass`: dealing is one pass over the slots that have room;
* `Container.shares`: how many items each slot gets;
* `drag_shares_stack_out`: what a whole drag does, or one that is broken off.
-/

namespace VoxelServer

namespace Container

variable {c : Container} {item : ItemStack} {slot : Nat} {slots : List Nat} {share left : Int}

/-! ## The slots of a drag -/

/-- The slots that a drag of a stack reaches if it goes across slots with some numbers: those there
are that are empty or hold a similar stack, each once, as they first come. -/
def dragged (c : Container) (held : ItemStack) (numbers : List Int16) : List Nat :=
  ((numbers.filterMap c.index?).filter fun slot => (c.get slot).all (·.isSimilar held)).eraseDups

/-- One more number adds at most one more slot. -/
theorem addSlot_dragged (c : Container) (held : ItemStack) (button : MouseButton)
    (numbers : List Int16) (number : Int16) :
    Drag.addSlot ⟨button, c.dragged held numbers⟩ c held number =
      ⟨button, c.dragged held (numbers ++ [number])⟩ := by
  unfold Drag.addSlot dragged
  rw [List.filterMap_append, List.filter_append, List.eraseDups_append]
  cases found : c.index? number with
  | none => simp [found]
  | some index =>
    generalize reached : (numbers.filterMap c.index?).filter
      (fun slot => (c.get slot).all (·.isSimilar held)) = slots
    by_cases fits : (c.get index).all (·.isSimilar held) = true
    · by_cases known : index ∈ slots
      · simp [found, fits, known, List.removeAll]
      · simp [found, fits, known, List.removeAll, List.eraseDups_cons]
    · simp [found, fits]

theorem dragged_fits (c : Container) (held : ItemStack) (numbers : List Int16) :
    (c.dragged held numbers).Nodup ∧ ∀ slot ∈ c.dragged held numbers, slot < c.size := by
  induction numbers using List.reverseRecOn with
  | nil => exact ⟨.nil, List.forall_mem_nil _⟩
  | append_singleton numbers number ih =>
    have added := @Inventory.addSlot_fits c ⟨.primary, c.dragged held numbers⟩ held number ih.1 ih.2
    rw [addSlot_dragged] at added
    exact added

/-! ## Dealing -/

/-- Of some slots those that take items if each may have a share. -/
def roomy (c : Container) (share : Int) (slots : List Nat) : List Nat :=
  slots.filter fun slot => 0 < min share (c.room slot)

theorem mem_roomy : slot ∈ c.roomy share slots ↔ slot ∈ slots ∧ 0 < min share (c.room slot) := by
  rw [roomy, List.mem_filter, decide_eq_true_iff]

/-- A slot with some more items, of a given kind if there are any. -/
def topped (c : Container) (item : ItemStack) (slot : Nat) (n : Int) : Slot :=
  if n = 0 then c.get slot else some (item.withSize ((c.get slot).size + n))

/-- Dealing out items is a pass over the slots that have room for some. -/
theorem deal_eq_pass (item : ItemStack) (share : Int) (left : Int) :
    c.deal item share slots left =
      c.pass (fun slot => min share (c.room slot)) (c.topped item) (c.roomy share slots) left := by
  unfold roomy
  induction slots generalizing left with
  | nil => rfl
  | cons slot slots ih =>
    have placing : min (min share (ItemStack.maxCount - (c.get slot).size)) left =
        min left (min share (c.room slot)) := Int.min_comm _ _
    by_cases space : 0 < min share (c.room slot)
    · rw [List.filter_cons_of_pos (by simpa using space)]
      by_cases done : left ≤ 0
      · rw [deal_cons_of_none (by omega), ih, pass_of_le _ done, pass_of_le _ done]
      · have some_placed : min left (min share (c.room slot)) ≠ 0 := by omega
        rw [deal_cons_of_some placing (by omega), pass_cons _ _ (Int.not_le.mp done)]
        simp only [ih, topped, if_neg some_placed]
    · rw [List.filter_cons_of_neg (by simpa using space), deal_cons_of_none (by omega), ih]

/-- What is in every slot once a stack is dealt out, and what is left of it. -/
theorem get_store_deal (item : ItemStack) (share : Int) (solid : c.Solid) (distinct : slots.Nodup)
    (inside : ∀ slot ∈ slots, slot < c.size) (low : 0 ≤ left) :
    let (ts, rest) := c.deal item share slots left
    ∃ moves, InTurn (c.roomy share slots) (fun slot => min share (c.room slot)) left moves ∧
      rest = left - ((c.roomy share slots).map moves).sum ∧
      ∀ slot, (c.store ts).1.get slot =
        if slot ∈ c.roomy share slots then c.topped item slot (moves slot) else c.get slot := by
  have movers : c.Movers (fun slot => min share (c.room slot)) (c.topped item)
      (c.roomy share slots) := by
    refine ⟨distinct.filter _, fun slot mem => inside slot (mem_roomy.mp mem).1,
      fun slot mem => (mem_roomy.mp mem).2, ?_, fun slot _ => if_pos rfl⟩
    intro slot _ n positive fits
    have nonneg := (solid.get slot).size_nonneg
    have most : c.room slot = 64 - (c.get slot).size := rfl
    rw [topped, if_neg (by omega)]
    exact Slot.solid_withSize item (by omega) (by omega)
  obtain ⟨moves, turns, dealt⟩ := get_store_pass movers low
  rw [deal_eq_pass]
  refine ⟨moves, turns, ?_, dealt⟩
  rw [turns.total]
  exact movers.left_pass low

/-! ## Shares -/

/-- How many items of a stack each slot gets if a drag with a button deals them out over some
slots. -/
def shares (c : Container) (button : MouseButton) (count : Int) (slots : List Nat) (slot : Nat) :
    Int :=
  match button with
  | .primary =>
    if slot ∈ slots then min (count / slots.length) (max 0 (64 - (c.get slot).size)) else 0
  | .secondary =>
    if slot ∈ (slots.filter fun slot => (c.get slot).size < 64).take count.toNat then 1 else 0

/-- There are enough items for equal shares. -/
theorem sum_room_le {count : Int} (low : 0 ≤ count) :
    ((c.roomy (count / slots.length) slots).map fun slot =>
      min (count / slots.length) (c.room slot)).sum ≤ count := by
  have nonneg : 0 ≤ count / slots.length := Int.ediv_nonneg low (Int.natCast_nonneg _)
  calc
    _ ≤ ((c.roomy (count / slots.length) slots).map fun _ => count / slots.length).sum :=
      List.sum_le_sum fun slot _ => Int.min_le_left _ _
    _ = (c.roomy (count / slots.length) slots).length * (count / slots.length) := by
      rw [List.map_const', List.sum_replicate, Int.nsmul_eq_mul]
    _ ≤ slots.length * (count / slots.length) :=
      Int.mul_le_mul_of_nonneg_right (Int.ofNat_le.mpr (List.length_filter_le _ _)) nonneg
    _ ≤ count := by
      by_cases empty : slots.length = 0
      · simpa [empty] using low
      · exact Int.mul_ediv_self_le (by omega)

theorem shares_primary {moves : Nat → Int} {count : Int} (low : 0 ≤ count)
    (turns : InTurn (c.roomy (count / slots.length) slots)
      (fun slot => min (count / slots.length) (c.room slot)) count moves) (slot : Nat) :
    c.shares .primary count slots slot =
      if slot ∈ c.roomy (count / slots.length) slots then moves slot else 0 := by
  have nonneg : 0 ≤ count / slots.length := Int.ediv_nonneg low (Int.natCast_nonneg _)
  have most : c.room slot = 64 - (c.get slot).size := rfl
  unfold shares
  dsimp only
  by_cases mem : slot ∈ c.roomy (count / slots.length) slots
  · obtain ⟨among, space⟩ := mem_roomy.mp mem
    rw [if_pos among, if_pos mem, turns.eq_limit (sum_room_le low) mem]
    omega
  · rw [if_neg mem]
    split
    · rename_i among
      have full : ¬ 0 < min (count / slots.length) (c.room slot) := fun space =>
        mem (mem_roomy.mpr ⟨among, space⟩)
      omega
    · rfl

theorem shares_secondary {moves : Nat → Int} {count : Int} (low : 0 ≤ count)
    (distinct : slots.Nodup)
    (turns : InTurn (c.roomy 1 slots) (fun slot => min 1 (c.room slot)) count moves)
    (slot : Nat) :
    c.shares .secondary count slots slot =
      if slot ∈ c.roomy 1 slots then moves slot else 0 := by
  have same : c.roomy 1 slots = slots.filter fun slot => (c.get slot).size < 64 := by
    refine List.filter_congr fun slot _ => decide_eq_decide.mpr ?_
    have most : c.room slot = 64 - (c.get slot).size := rfl
    omega
  have one : ∀ slot ∈ c.roomy 1 slots, min 1 (c.room slot) = 1 := by
    intro slot mem
    have space := (mem_roomy.mp mem).2
    omega
  unfold shares
  rw [← same]
  dsimp only
  by_cases mem : slot ∈ c.roomy 1 slots
  · rw [if_pos mem, turns.eq_one one (distinct.filter _) low mem]
  · rw [if_neg mem, if_neg fun first => mem (List.mem_of_mem_take first)]

theorem sum_map_filter {isOpen : Nat → Bool} {f : Nat → Int}
    (nothing : ∀ slot ∈ slots, isOpen slot = false → f slot = 0) :
    ((slots.filter isOpen).map f).sum = (slots.map f).sum := by
  induction slots with
  | nil => rfl
  | cons slot slots ih =>
    obtain ⟨here, others⟩ := List.forall_mem_cons.mp nothing
    cases passed : isOpen slot with
    | true => simp [passed, ih others]
    | false => simp [passed, ih others, here passed]

/-- Once a stack is dealt out each slot has its share, and the rest is left. -/
theorem get_store_shares (button : MouseButton) (held : ItemStack) (solid : c.Solid)
    (distinct : slots.Nodup) (inside : ∀ slot ∈ slots, slot < c.size) (low : 0 ≤ held.size) :
    let gets := c.shares button held.size slots
    let (ts, rest) := c.deal held (Drag.share ⟨button, slots⟩ held.size) slots held.size
    rest = held.size - (slots.map gets).sum ∧
      ∀ slot, (c.store ts).1.get slot = c.topped held slot (gets slot) := by
  intro gets
  obtain ⟨moves, turns, rest, dealt⟩ := get_store_deal held (Drag.share ⟨button, slots⟩ held.size)
    solid distinct inside low
  have same : ∀ slot, gets slot =
      if slot ∈ c.roomy (Drag.share ⟨button, slots⟩ held.size) slots then moves slot else 0 := by
    cases button with
    | primary =>
      have share : Drag.share ⟨.primary, slots⟩ held.size = held.size / slots.length := by
        have whole : (held.size.toNat : Int) = held.size := Int.toNat_of_nonneg low
        rw [← whole]
        exact Int.natCast_ediv _ _
      rw [share] at turns ⊢
      exact shares_primary low turns
    | secondary => exact shares_secondary low distinct turns
  have total : (slots.map gets).sum =
      ((c.roomy (Drag.share ⟨button, slots⟩ held.size) slots).map moves).sum := by
    rw [← List.map_congr_left fun slot mem => (same slot).trans (if_pos mem)]
    refine (sum_map_filter fun slot among full => ?_).symm
    rw [same slot, if_neg fun mem => of_decide_eq_false full (mem_roomy.mp mem).2]
  refine ⟨total ▸ rest, fun slot => ?_⟩
  rw [dealt slot, same slot]
  split
  · rfl
  · exact (if_pos rfl).symm

end Container

namespace Inventory

/-! ## Runs -/

/-- A click of a drag in the current container, with the button for a step of it. -/
structure Steps (v : Inventory) (step : DragStep) (m : ClickWindow) : Prop where
  shown : m.windowId = v.current.windowId
  mode : m.mode = 5
  button : DragStep.ofNumber? m.button = some step

variable {v : Inventory} {m : ClickWindow} {creative : Bool} {button : MouseButton}
  {held : ItemStack} {clicks : List (ClickWindow × Bool)}

theorem clickAll_cons {outcome : Outcome ClickEvent}
    (clicked : v.click id m creative = .ok outcome) :
    v.clickAll ((m, creative) :: clicks) = outcome.inventory.clickAll clicks := by
  rw [clickAll, clicked]
  rfl

/-- A click of a drag that plans nothing. -/
theorem clickAll_of_dragClick {w : Inventory} (shown : m.windowId = v.current.windowId)
    (mode : m.mode = 5) (went : v.dragClick m = (w, none)) :
    v.clickAll ((m, creative) :: clicks) = w.clickAll clicks :=
  clickAll_cons (click_of_none shown ((plan_drag mode creative).trans (congrArg _ went)))

theorem clickAll_start (start : v.Steps (.start button) m) (cursor : v.cursor = some held)
    (still : v.drag = none) :
    v.clickAll ((m, creative) :: clicks) =
      clickAll { v with drag := some ⟨button, v.current.dragged held []⟩ } clicks := by
  refine clickAll_of_dragClick start.shown start.mode ?_
  rw [dragClick, cursor, still, start.button]
  rfl

/-- While a drag is going on nothing but its slots changes. -/
theorem clickAll_adds {numbers : List Int16} {adds : List (ClickWindow × Bool)}
    (added : ∀ click ∈ adds, v.Steps (.add button) click.1) (cursor : v.cursor = some held) :
    clickAll { v with drag := some ⟨button, v.current.dragged held numbers⟩ } (adds ++ clicks) =
      clickAll { v with drag := some ⟨button, v.current.dragged held
        (numbers ++ adds.map (·.1.slot))⟩ } clicks := by
  induction adds generalizing numbers with
  | nil => rw [List.map_nil, List.append_nil, List.nil_append]
  | cons click adds ih =>
    obtain ⟨here, others⟩ := List.forall_mem_cons.mp added
    obtain ⟨m, creative⟩ := click
    rw [List.map_cons, List.append_cons, ← ih others]
    refine clickAll_of_dragClick here.shown here.mode ?_
    unfold dragClick
    dsimp only
    rw [cursor, here.button]
    dsimp only
    rw [if_pos rfl, ← Container.addSlot_dragged]
    rfl

/-- A click that belongs elsewhere breaks a drag off. -/
theorem clickAll_stray (drag : Drag) (shown : m.windowId = v.current.windowId) (mode : m.mode = 5)
    (not_add : DragStep.ofNumber? m.button ≠ some (.add drag.button))
    (not_finish : DragStep.ofNumber? m.button ≠ some (.finish drag.button)) :
    clickAll { v with drag := some drag } ((m, creative) :: clicks) =
      clickAll { v with drag := none } clicks := by
  refine clickAll_of_dragClick shown mode ?_
  unfold dragClick
  dsimp only
  cases v.cursor with
  | none => rfl
  | some held =>
    cases button : DragStep.ofNumber? m.button with
    | none => rfl
    | some step =>
      rw [button] at not_add not_finish
      cases step with
      | start button => rfl
      | add button =>
        refine if_neg ?_
        rintro rfl
        exact not_add rfl
      | finish button =>
        refine if_neg ?_
        rintro rfl
        exact not_finish rfl

/-- The click that ends a drag deals out what is on the cursor. -/
theorem clickAll_finish (drag : Drag) (finish : v.Steps (.finish drag.button) m)
    (cursor : v.cursor = some held) (creative : Bool) :
    let (ts, rest) := v.current.deal held (drag.share held.size) drag.slots held.size
    clickAll { v with drag := some drag } [(m, creative)] =
      .ok { v.withCurrent (v.current.store ts).1 with
        cursor := held.ofCount? rest, drag := none } := by
  have went : dragClick { v with drag := some drag } m =
      ({ v with drag := none }, some (v.finishDrag drag held)) := by
    unfold dragClick
    dsimp only
    rw [cursor, finish.button]
    exact if_pos rfl
  obtain ⟨replies, clicked⟩ := click_of_some (v := { v with drag := some drag }) finish.shown
    ((plan_drag finish.mode creative).trans (congrArg _ went))
  rw [clickAll_cons clicked]
  obtain ⟨player, window, cursor, drag⟩ := v
  cases window <;> rfl

end Inventory

/-- **A drag shares a stack out and keeps the rest.** It goes across any slots, and reaches those
that are empty or hold similar items. With the primary button all of them get the same number of
items, up to 64 in a slot; with the secondary one each that has room gets one, as long as there are
any. The cursor keeps the others, and no other slot changes. Any other click of a drag in between
breaks it off, and everything is as before.

That the slots are solid is true of every inventory: see `Inventory.Reachable.slotsSolid`. -/
theorem drag_shares_stack_out (v : Inventory) (button : MouseButton) (held : ItemStack)
    (start : ClickWindow) (creative : Bool) (adds : List (ClickWindow × Bool))
    (solid : v.current.Solid) (cursor : v.cursor = some held) (positive : 1 ≤ held.size)
    (still : v.drag = none) (started : v.Steps (.start button) start)
    (added : ∀ click ∈ adds, v.Steps (.add button) click.1) (last : ClickWindow)
    (isCreative : Bool) (shown : last.windowId = v.current.windowId) (mode : last.mode = 5) :
    let c := v.current
    let slots := c.dragged held (adds.map (·.1.slot))
    let gets := c.shares button held.size slots
    let clicks := (start, creative) :: adds ++ [(last, isCreative)]
    (DragStep.ofNumber? last.button = some (.finish button) →
      ∃ d, v.clickAll clicks = .ok { v.withCurrent d with
          cursor := held.ofCount? (held.size - (slots.map gets).sum), drag := none } ∧
        (d.windowId = c.windowId ∧ d.own = c.own ∧ d.size = c.size) ∧
        ∀ slot, d.get slot =
          if gets slot = 0 then c.get slot
          else some (held.withSize ((c.get slot).size + gets slot))) ∧
    (DragStep.ofNumber? last.button ≠ some (.add button) →
      DragStep.ofNumber? last.button ≠ some (.finish button) → v.clickAll clicks = .ok v) := by
  intro c slots gets clicks
  have going : v.clickAll clicks =
      Inventory.clickAll { v with drag := some ⟨button, slots⟩ } [(last, isCreative)] :=
    (Inventory.clickAll_start started cursor still).trans (Inventory.clickAll_adds added cursor)
  constructor
  · intro finished
    obtain ⟨distinct, inside⟩ := c.dragged_fits held (adds.map (·.1.slot))
    have shared := Container.get_store_shares button held solid distinct inside (by omega)
    have dealt := Inventory.clickAll_finish ⟨button, slots⟩ ⟨shown, mode, finished⟩ cursor
      isCreative
    rw [going]
    generalize v.current.deal held _ slots held.size = dealing at shared dealt
    obtain ⟨ts, rest⟩ := dealing
    obtain ⟨rfl, content⟩ := shared
    exact ⟨_, dealt, c.layout_store ts, content⟩
  · intro not_add not_finish
    rw [going, Inventory.clickAll_stray _ shown mode not_add not_finish, ← still]
    rfl

/-- A drag across two empty slots and the hundred stones. One slot is named twice, two others do not
exist. -/
def Inventory.sharingClicks : List (ClickWindow × Bool) :=
  [9, -1, 9, 10, 60, 11].map fun slot => (⟨0, slot, 1, 1, 5, none⟩, false)

theorem drag_shares_stones_out :
    ∃ v, Inventory.stones.clickAll ((⟨0, -999, 0, 1, 5, none⟩, false) :: Inventory.sharingClicks ++
        [(⟨0, -999, 2, 1, 5, none⟩, false)]) = .ok v ∧
      v.cursor = some ⟨1, 3, 0, none⟩ ∧ v.current.get 9 = some ⟨1, 1, 0, none⟩ ∧
      v.current.get 10 = some ⟨1, 100, 0, none⟩ ∧ v.current.get 11 = some ⟨1, 1, 0, none⟩ := by
  have reachable : Inventory.stones.Reachable :=
    .cursor (@Inventory.Reachable.set _ .empty 10 (some ⟨1, 100, 0, none⟩) _ rfl) _
  have added : ∀ click ∈ Inventory.sharingClicks,
      Inventory.stones.Steps (.add .primary) click.1 := by
    intro click mem
    obtain ⟨slot, -, rfl⟩ := List.mem_map.mp mem
    exact ⟨rfl, rfl, rfl⟩
  obtain ⟨shares, -⟩ := drag_shares_stack_out Inventory.stones .primary ⟨1, 5, 0, none⟩
    ⟨0, -999, 0, 1, 5, none⟩ false Inventory.sharingClicks reachable.slotsSolid.current rfl
    (by decide) rfl ⟨rfl, rfl, rfl⟩ added ⟨0, -999, 2, 1, 5, none⟩ false rfl rfl
  obtain ⟨d, clicked, -, content⟩ := shares rfl
  refine ⟨_, clicked, ?_, ?_, ?_, ?_⟩
  · rfl
  · exact content 9
  · exact content 10
  · exact content 11

end VoxelServer
