import VoxelServer.Proofs.Inventory.Plans

/-!
# Clicks

What a click that belongs to no drag does to the inventory as a whole:

* `Inventory.Plans`: the plans there are, and `Inventory.plan_cases` that there are no others;
* `Inventory.SameItems`: as many items of every kind as before;
* `click_keeps_items`: a click moves items, drops some or copies one.
-/

namespace VoxelServer

namespace Inventory

variable {v : Inventory} {plan : ClickPlan} {m : ClickWindow} {creative : Bool}

/-- The plans of clicks that belong to no drag. -/
inductive Plans (v : Inventory) (m : ClickWindow) (creative : Bool) (plan : ClickPlan) : Prop
  | plain (mode : m.mode = 0) (inside : m.slot ≠ outsideSlot)
      (planned : v.plainClick m.slot m.button = some plan)
  | shift (mode : m.mode = 1) (planned : v.shiftClick m.slot m.button = some plan)
  | number (mode : m.mode = 2) (planned : v.numberClick m.slot m.button = some plan)
  | middle (mode : m.mode = 3) (planned : v.middleClick m.slot creative = plan)
  | drop (mode : m.mode = 4) (inside : m.slot ≠ outsideSlot)
      (planned : v.dropClick m.slot m.button = some plan)
  | double (mode : m.mode = 6) (planned : v.doubleClick m.slot m.button = some plan)
  | outside (mode : m.mode = 0 ∨ m.mode = 4) (outside : m.slot = outsideSlot)
      (planned : v.outsideClick m.button = some plan)

theorem plan_cases {w : Inventory} (other : m.mode ≠ 5)
    (planned : v.plan m creative = .ok (w, some plan)) :
    w = v ∧ v.drag = none ∧ v.Plans m creative plan := by
  unfold Inventory.plan at planned
  simp only [beq_iff_eq, if_neg other] at planned
  split at planned
  · cases planned
  rename_i still
  have still : v.drag = none := by simpa using still
  split at planned
  · rename_i mode
    obtain ⟨rfl, chosen⟩ := Prod.mk.inj (Except.ok.inj planned)
    split at chosen
    · rename_i outside
      exact ⟨rfl, still, .outside (.inl mode) outside chosen⟩
    · rename_i inside
      exact ⟨rfl, still, .plain mode inside chosen⟩
  split at planned
  · rename_i mode
    obtain ⟨rfl, chosen⟩ := Prod.mk.inj (Except.ok.inj planned)
    exact ⟨rfl, still, .shift mode chosen⟩
  split at planned
  · rename_i mode
    obtain ⟨rfl, chosen⟩ := Prod.mk.inj (Except.ok.inj planned)
    exact ⟨rfl, still, .number mode chosen⟩
  split at planned
  · rename_i mode
    obtain ⟨rfl, chosen⟩ := Prod.mk.inj (Except.ok.inj planned)
    exact ⟨rfl, still, .middle mode (Option.some.inj chosen)⟩
  split at planned
  · rename_i mode
    obtain ⟨rfl, chosen⟩ := Prod.mk.inj (Except.ok.inj planned)
    split at chosen
    · rename_i outside
      exact ⟨rfl, still, .outside (.inr mode) outside chosen⟩
    · rename_i inside
      exact ⟨rfl, still, .drop mode inside chosen⟩
  split at planned
  · rename_i mode
    obtain ⟨rfl, chosen⟩ := Prod.mk.inj (Except.ok.inj planned)
    exact ⟨rfl, still, .double mode chosen⟩
  · cases planned

/-- A click that has no plan at most ends a drag. -/
theorem plan_of_none {w : Inventory} (other : m.mode ≠ 5)
    (planned : v.plan m creative = .ok (w, none)) : w = { v with drag := none } := by
  unfold Inventory.plan at planned
  simp only [beq_iff_eq, if_neg other] at planned
  split at planned
  · cases planned
    rfl
  · rename_i still
    have still : v.drag = none := by simpa using still
    have same : w = v := by
      repeat' split at planned
      all_goals simp_all
    rw [same, ← still]

/-- A click of any mode there is can be answered. -/
theorem exists_plan (creative : Bool) (known : m.mode ∈ [0, 1, 2, 3, 4, 6]) :
    ∃ w plan, v.plan m creative = .ok (w, plan) := by
  unfold Inventory.plan
  simp only [List.mem_cons, List.not_mem_nil, or_false] at known
  obtain mode | mode | mode | mode | mode | mode := known
  all_goals
    simp only [mode]
    by_cases dragging : v.drag.isSome = true
    · exact ⟨_, _, if_pos dragging⟩
    · exact ⟨_, _, if_neg dragging⟩

theorem sound_of_plan (hv : v.Proper) (plans : v.Plans m creative plan) : plan.Sound v := by
  cases plans with
  | plain _ _ planned => exact (plainClick_spec hv planned).1
  | shift _ planned => exact (shiftClick_spec hv planned).1
  | number _ planned => exact (numberClick_spec hv planned).1
  | middle _ planned => exact planned ▸ (middleClick_spec hv m.slot creative).1
  | drop _ _ planned => exact (dropClick_spec hv planned).1
  | double _ planned => exact (doubleClick_spec hv planned).1
  | outside _ _ planned => exact (outsideClick_spec hv planned).1

theorem even_of_plan (hv : v.Proper) (plans : v.Plans m creative plan)
    (moving : m.mode = 0 ∧ m.slot ≠ outsideSlot ∨ m.mode ∈ [1, 2, 6]) : plan.Even := by
  cases plans with
  | plain _ _ planned => exact (plainClick_spec hv planned).2
  | shift _ planned => exact (shiftClick_spec hv planned).2
  | number _ planned => exact (numberClick_spec hv planned).2
  | double _ planned => exact (doubleClick_spec hv planned).2
  | middle mode | drop mode => simp [mode] at moving
  | outside mode outside => obtain mode | mode := mode <;> simp [mode, outside] at moving

theorem outside_of_plan (hv : v.Proper) (plans : v.Plans m creative plan)
    (mode : m.mode = 0 ∨ m.mode = 4) (outside : m.slot = outsideSlot) :
    plan.slots = [] ∧ v.cursor.Drops plan.cursor.after := by
  cases plans with
  | outside _ _ planned => exact (outsideClick_spec hv planned).2
  | plain _ inside | drop _ inside => exact absurd outside inside
  | shift other | number other | middle other | double other => simp [other] at mode

theorem middle_of_plan (hv : v.Proper) (plans : v.Plans m creative plan) (mode : m.mode = 3) :
    plan.slots = [] ∧ (plan.cursor.after = v.cursor ∨ creative = true ∧ v.cursor = none ∧
      ∃ index item, v.slot? m.slot = some (index, some item)) := by
  cases plans with
  | middle _ planned => exact planned ▸ (middleClick_spec hv m.slot creative).2
  | outside other => simp [mode] at other
  | plain other | shift other | number other | drop other | double other => simp [mode] at other

/-- A drop takes from the slot it names, and leaves the others alone. -/
theorem drop_of_plan (hv : v.Proper) (plans : v.Plans m creative plan) (mode : m.mode = 4)
    (inside : m.slot ≠ outsideSlot) :
    plan.cursor.after = v.cursor ∧ ∀ i : Nat,
      if (i : Int) = m.slot.toInt then
        (v.current.get i).Drops ((v.current.store plan.slots).1.get i)
      else (v.current.store plan.slots).1.get i = v.current.get i := by
  cases plans with
  | drop _ _ planned =>
    obtain ⟨sound, cursor, slots⟩ := dropClick_spec hv planned
    refine ⟨cursor, fun i => ?_⟩
    obtain slots | ⟨index, now, same, slots, drops⟩ := slots
    · rw [slots]
      split
      · exact .nothing _
      · rfl
    · have faithful := sound.faithful.slots
      rw [slots] at faithful ⊢
      split
      · rename_i named
        obtain rfl : i = index := by omega
        rw [Container.get_store_of_mem faithful List.mem_cons_self]
        exact drops
      · rename_i unnamed
        refine Container.get_store_of_not_mem faithful fun t ht => ?_
        rw [List.mem_singleton.mp ht]
        rintro rfl
        exact unnamed same
  | outside _ outside => exact absurd outside inside
  | plain other | shift other | number other | middle other | double other => simp [mode] at other

/-- As many items of every kind as before, and as many in all. -/
structure SameItems (v w : Inventory) : Prop where
  total : w.amount (fun _ => true) = v.amount (fun _ => true)
  similar : ∀ x : ItemStack, w.amount (·.isSimilar x) = v.amount (·.isSimilar x)

theorem sameItems_make (sound : plan.Sound v) (even : plan.Even) : v.SameItems (v.make plan) := by
  refine ⟨?_, fun x => ?_⟩
  · rw [amount_make sound.faithful, even ItemStack.kind_all, Int.add_zero]
  · rw [amount_make sound.faithful, even (ItemStack.kind_similar x), Int.add_zero]

end Inventory

/-- **A click neither makes nor loses items.** A click in the current container that belongs to no
drag moves items about, drops them from the one holder it names, or copies one in creative mode; it
does nothing to the rest of the inventory, and no stack grows beyond 64 or the largest there was. -/
theorem click_keeps_items (v : Inventory) (m : ClickWindow) (creative : Bool) (proper : v.Proper)
    (shown : m.windowId = v.current.windowId) (other : m.mode ≠ 5) :
    (m.mode ∈ [0, 1, 2, 3, 4, 6] → ∃ outcome, v.click id m creative = .ok outcome) ∧
    ∀ outcome, v.click id m creative = .ok outcome →
      let w := outcome.inventory
      w = { v.withCurrent w.current with cursor := w.cursor, drag := none } ∧
      (m.mode = 0 ∧ m.slot ≠ outsideSlot ∨ m.mode ∈ [1, 2, 6] → v.SameItems w) ∧
      ((m.mode = 0 ∨ m.mode = 4) ∧ m.slot = outsideSlot →
        w.current = v.current ∧ v.cursor.Drops w.cursor) ∧
      (m.mode = 4 ∧ m.slot ≠ outsideSlot →
        w.cursor = v.cursor ∧ ∀ i : Nat,
          if (i : Int) = m.slot.toInt then (v.current.get i).Drops (w.current.get i)
          else w.current.get i = v.current.get i) ∧
      (m.mode = 3 → w.current = v.current ∧
        (w.cursor = v.cursor ∨ creative = true ∧ v.cursor = none ∧
          ∃ index item, v.slot? m.slot = some (index, some item))) ∧
      ∀ bound, 64 ≤ bound → v.AtMost bound → w.AtMost bound := by
  constructor
  · intro known
    obtain ⟨w, plan, planned⟩ := v.exists_plan creative known
    cases plan with
    | none => exact ⟨_, Inventory.click_of_none shown planned⟩
    | some plan =>
      obtain ⟨replies, clicked⟩ := Inventory.click_of_some shown planned
      exact ⟨_, clicked⟩
  · intro outcome clicked
    obtain planned | ⟨w, plan, planned, made⟩ := Inventory.planned_of_click shown clicked
    · -- the click has ended a drag, or made no sense
      rw [Inventory.plan_of_none other planned]
      refine ⟨?_, fun _ => ⟨rfl, fun _ => rfl⟩, fun _ => ⟨rfl, .nothing _⟩,
        fun _ => ⟨rfl, fun i => ?_⟩, fun _ => ⟨rfl, .inl rfl⟩,
        fun _ _ least => ⟨least.cursor, least.slots⟩⟩
      · show _ = { v.withCurrent v.current with cursor := v.cursor, drag := none }
        rw [Inventory.withCurrent_current]
      · split
        · exact .nothing _
        · rfl
    · obtain ⟨rfl, still, kinds⟩ := Inventory.plan_cases other planned
      have sound := Inventory.sound_of_plan proper kinds
      rw [made]
      refine ⟨?_, fun moving => ?_, fun ⟨mode, outside⟩ => ?_, fun ⟨mode, inside⟩ => ?_,
        fun mode => ?_, fun bound high least => ?_⟩
      · exact Inventory.make_eq still plan
      · exact Inventory.sameItems_make sound (Inventory.even_of_plan proper kinds moving)
      · obtain ⟨slots, drops⟩ := Inventory.outside_of_plan proper kinds mode outside
        rw [Inventory.current_make, slots]
        exact ⟨rfl, drops⟩
      · rw [Inventory.current_make]
        exact Inventory.drop_of_plan proper kinds mode inside
      · obtain ⟨slots, cursor⟩ := Inventory.middle_of_plan proper kinds mode
        rw [Inventory.current_make, slots]
        exact ⟨rfl, cursor⟩
      · exact Inventory.atMost_make sound.faithful least (sound.bounded high least)

/-- A hundred stones in the main inventory, and five more on the cursor. -/
def Inventory.stones : Inventory :=
  { Inventory.empty with
    player := Container.player.put 10 (some ⟨1, 100, 0, none⟩)
    cursor := some ⟨1, 5, 0, none⟩ }

theorem proper_stones : Inventory.stones.Proper where
  shaped := .inl ⟨rfl, rfl⟩
  cursor := Slot.proper_some.mpr (ItemStack.proper_of_none rfl (by decide))
  slots slot := by
    by_cases there : slot = 10
    · subst there
      exact Slot.proper_some.mpr (ItemStack.proper_of_none rfl (by decide))
    · have empty : Inventory.stones.current.get slot = none :=
        (Container.get_put_of_ne (Ne.symm there) _).trans (Container.get_player slot)
      rw [empty]
      exact Slot.proper_none

theorem shift_click_keeps_stones :
    ∃ outcome, Inventory.stones.click id ⟨0, 10, 0, 1, 1, none⟩ false = .ok outcome ∧
      Inventory.stones.SameItems outcome.inventory ∧
      outcome.inventory.amount (fun _ => true) = 105 := by
  obtain ⟨answered, kept⟩ := click_keeps_items Inventory.stones ⟨0, 10, 0, 1, 1, none⟩ false
    proper_stones rfl (by decide)
  obtain ⟨outcome, clicked⟩ := answered (by decide)
  have same := (kept outcome clicked).2.1 (.inr (by decide))
  exact ⟨outcome, clicked, same, same.total.trans (by decide)⟩

end VoxelServer
