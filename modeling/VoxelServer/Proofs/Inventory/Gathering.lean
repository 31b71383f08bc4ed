import VoxelServer.Proofs.Inventory.Filling

/-!
# Gathering items from slots

A double click fills up the stack on the cursor. It empties the slots with similar stacks of fewer
than 64 items first and those with larger ones after them, and stops once the cursor has 64:

* `Container.gather_eq_pass`: gathering is one pass over the slots that hold similar stacks;
* `Container.sum_givers`: how much there is to gather;
* `double_click_gathers_in_turn`: a double click gathers as much as possible.
-/

namespace VoxelServer

namespace Container

variable {c : Container} {item : ItemStack} {slot : Nat} {slots : List Nat}

/-- A slot with some fewer items. -/
def shrunk (c : Container) (slot : Nat) (n : Int) : Slot :=
  (c.get slot).bind fun found => found.ofCount? (found.size - n)

theorem shrunk_zero (solid : (c.get slot).Solid) : c.shrunk slot 0 = c.get slot := by
  unfold shrunk
  cases held : c.get slot with
  | none => rfl
  | some found =>
    rw [held, Slot.solid_some] at solid
    rw [Option.bind_some, Int.sub_zero, found.ofCount?_size solid]

theorem solid_shrunk {n : Int} (positive : 0 < n) : (c.shrunk slot n).Solid := by
  unfold shrunk
  cases c.get slot with
  | none => exact Slot.solid_none
  | some found =>
    have small := found.size_le
    exact Slot.solid_ofCount? found (by omega)

/-- Of some slots those that hold a similar stack of 64 items or more. -/
def wholes (c : Container) (item : ItemStack) (slots : List Nat) : List Nat :=
  slots.filter fun slot =>
    (c.get slot).any fun found => found.isSimilar item && !decide (found.size < ItemStack.maxCount)

/-- Of some slots those that give items to a stack, in the order in which they do. -/
def givers (c : Container) (item : ItemStack) (slots : List Nat) : List Nat :=
  c.partials item slots ++ c.wholes item slots

/-- Emptying slots for a stack is a pass over those that hold what it takes. -/
theorem drain_eq_pass (isSource : ItemStack → Bool) (count : Int) :
    c.drain isSource slots count =
      let (ts, left) := c.pass (fun slot => (c.get slot).size) c.shrunk
        (slots.filter fun slot => (c.get slot).any isSource) (64 - count)
      (ts, 64 - left) := by
  induction slots generalizing count with
  | nil => simp [drain, pass]
  | cons slot slots ih =>
    by_cases full : ItemStack.maxCount ≤ count
    · have full' : 64 ≤ count := full
      rw [pass_of_le _ (by omega), drain, if_pos full]
      simp
    have short : ¬ 64 ≤ count := full
    rw [drain, if_neg full]
    cases held : c.get slot with
    | none =>
      rw [List.filter_cons_of_neg (by simp [held])]
      exact ih count
    | some found =>
      dsimp only
      by_cases source : isSource found = true
      · have after (n : Int) : c.shrunk slot n = found.ofCount? (found.size - n) := by
          rw [shrunk, held, Option.bind_some]
        rw [if_pos source, List.filter_cons_of_pos (by simp [held, source]),
          pass_cons _ _ (by omega), ih]
        simp only [held, after, Slot.size_some, Int.sub_sub, Int.min_comm (64 - count)]
        rfl
      · rw [if_neg source, List.filter_cons_of_neg (by simp [held, source])]
        exact ih count

/-- Gathering items is one pass over the slots that give some. -/
theorem gather_eq_pass (item : ItemStack) :
    c.gather item =
      let (ts, left) := c.pass (fun slot => (c.get slot).size) c.shrunk (c.givers item c.indices)
        (64 - item.size)
      (ts, 64 - left) := by
  unfold gather givers
  rw [pass_append]
  simp only [drain_eq_pass, Int.sub_sub_self]
  rfl

theorem nodup_givers (c : Container) (item : ItemStack) (distinct : slots.Nodup) :
    (c.givers item slots).Nodup := by
  refine List.nodup_append.mpr ⟨distinct.filter _, distinct.filter _, ?_⟩
  rintro slot partly _ whole rfl
  have fewer := (List.mem_filter.mp partly).2
  have more := (List.mem_filter.mp whole).2
  cases held : c.get slot with
  | none => simp [held] at fewer
  | some found => simp_all [ItemStack.isPartial]

theorem of_mem_givers (mem : slot ∈ c.givers item slots) :
    slot ∈ slots ∧ ∃ found, c.get slot = some found := by
  have held : slot ∈ slots ∧ (c.get slot).isSome := by
    obtain mem | mem := List.mem_append.mp mem
    · obtain ⟨there, fits⟩ := List.mem_filter.mp mem
      exact ⟨there, Option.isSome_of_any fits⟩
    · obtain ⟨there, fits⟩ := List.mem_filter.mp mem
      exact ⟨there, Option.isSome_of_any fits⟩
  exact ⟨held.1, Option.isSome_iff_exists.mp held.2⟩

theorem movers_givers (item : ItemStack) (solid : c.Solid) :
    c.Movers (fun slot => (c.get slot).size) c.shrunk (c.givers item c.indices) where
  distinct := nodup_givers c item List.nodup_range
  inside slot mem := List.mem_range.mp (of_mem_givers mem).1
  space slot mem := by
    obtain ⟨-, found, held⟩ := of_mem_givers mem
    rw [held]
    exact solid.get slot found held
  solid _ _ _ positive _ := solid_shrunk positive
  idle slot _ := shrunk_zero (solid.get slot)

theorem map_get_indices (c : Container) : c.indices.map c.get = c.slots := by
  refine List.ext_getElem (by simp [indices, size]) fun i _ inside => ?_
  simp [indices, get, inside]

/-- The slots that give items hold all there are of that kind. -/
theorem sum_givers (c : Container) (item : ItemStack) (slots : List Nat) :
    ((c.givers item slots).map fun slot => (c.get slot).size).sum =
      amountIn (·.isSimilar item) (slots.map c.get) := by
  rw [givers, List.map_append, List.sum_append]
  induction slots with
  | nil => rfl
  | cons slot slots ih =>
    rw [List.map_cons, amountIn, ← ih]
    unfold partials wholes
    cases held : c.get slot with
    | none => simp [held]
    | some found =>
      by_cases similar : found.isSimilar item = true
      · by_cases short : found.size < ItemStack.maxCount
        · simp [held, ItemStack.isPartial, similar, short, Slot.amount_some]
          omega
        · simp [held, ItemStack.isPartial, similar, short, Slot.amount_some]
          omega
      · simp [held, ItemStack.isPartial, similar, Slot.amount_some]

/-- What is in every slot once its items are gathered for a stack, and how many there are. -/
theorem get_store_gather (item : ItemStack) (solid : c.Solid) (short : item.size < 64) :
    let (ts, count) := c.gather item
    count = min 64 (item.size + c.amount (·.isSimilar item)) ∧
    ∃ moves, InTurn (c.givers item c.indices) (fun slot => (c.get slot).size) (64 - item.size)
        moves ∧
      ((c.givers item c.indices).map moves).sum = count - item.size ∧
      ∀ slot, (c.store ts).1.get slot =
        if slot ∈ c.givers item c.indices then c.shrunk slot (moves slot) else c.get slot := by
  have movers := movers_givers item solid
  have low : 0 ≤ 64 - item.size := by omega
  have all : ((c.givers item c.indices).map fun slot => (c.get slot).size).sum =
      c.amount (·.isSimilar item) := by
    rw [sum_givers, map_get_indices, amount]
  have left := movers.left_pass low
  obtain ⟨moves, turns, emptied⟩ := get_store_pass movers low
  have total := turns.total
  rw [all] at left total
  rw [gather_eq_pass]
  dsimp only
  rw [left]
  exact ⟨by omega, moves, turns, by omega, emptied⟩

end Container

namespace Inventory

variable {v : Inventory} {m : ClickWindow} {slot : Int16}

theorem plan_double (still : v.drag = none) (mode : m.mode = 6) (creative : Bool) :
    v.plan m creative = .ok (v, v.doubleClick m.slot m.button) := by
  simp [Inventory.plan, still, mode]

/-- With nothing on the cursor, or a full stack, there is nothing to gather. -/
theorem doubleClick_of_idle (inside : (v.current.index? slot).isSome)
    (idle : ∀ held ∈ v.cursor, 64 ≤ held.size) :
    v.doubleClick slot 0 = some ⟨.double, .unchanged v.cursor, []⟩ := by
  obtain ⟨index, found⟩ := Option.isSome_iff_exists.mp inside
  unfold doubleClick slot?
  rw [found]
  cases cursor : v.cursor with
  | none => rfl
  | some held =>
    have full : ItemStack.maxCount ≤ held.size := idle held cursor
    simp [full]

/-- The plan of a double click with a stack on the cursor that is not full. -/
theorem doubleClick_of_short (inside : (v.current.index? slot).isSome) {held : ItemStack}
    (cursor : v.cursor = some held) (short : held.size < 64) :
    v.doubleClick slot 0 =
      let (slots, count) := v.current.gather held
      some ⟨.double, ⟨v.cursor, some (held.withSize count)⟩, slots⟩ := by
  obtain ⟨index, found⟩ := Option.isSome_iff_exists.mp inside
  have short : ¬ ItemStack.maxCount ≤ held.size := Int.not_le.mpr short
  unfold doubleClick slot?
  rw [found, cursor]
  simp [short]

end Inventory

/-- **A double click gathers as much as possible, partial stacks first.** Similar items go to the
cursor until it has 64 or there are no more: the slots with fewer than 64 are emptied one after the
other, then the larger ones. No other slot changes, and no slot at all if there is nothing on the
cursor or a full stack.

This is about whole numbers. With more than −64 items on the cursor, as after every click whose
event is left alone, none of them is too large for a byte. -/
theorem double_click_gathers_in_turn (v : Inventory) (m : ClickWindow) (creative : Bool)
    (solid : v.current.Solid) (still : v.drag = none) (shown : m.windowId = v.current.windowId)
    (mode : m.mode = 6) (button : m.button = 0) (inside : (v.current.index? m.slot).isSome) :
    ∃ outcome, v.click id m creative = .ok outcome ∧
      ((∀ held ∈ v.cursor, 64 ≤ held.size) → outcome.inventory = v) ∧
      ∀ held, v.cursor = some held → held.size < 64 →
        let c := v.current
        let d := outcome.inventory.current
        let givers := c.partials held c.indices ++ c.wholes held c.indices
        let count := min 64 (held.size + c.amount (·.isSimilar held))
        outcome.inventory = { v.withCurrent d with cursor := some (held.withSize count) } ∧
        (d.windowId = c.windowId ∧ d.own = c.own ∧ d.size = c.size) ∧
        ∃ moves, InTurn givers (fun slot => (c.get slot).size) (64 - held.size) moves ∧
          (givers.map moves).sum = count - held.size ∧
          ∀ slot, d.get slot =
            if slot ∈ givers then
              (c.get slot).bind fun found => found.ofCount? (found.size - moves slot)
            else c.get slot := by
  have planned := button ▸ Inventory.plan_double still mode creative
  by_cases idle : ∀ held ∈ v.cursor, 64 ≤ held.size
  · rw [Inventory.doubleClick_of_idle inside idle] at planned
    obtain ⟨replies, clicked⟩ := Inventory.click_of_some shown planned
    refine ⟨_, clicked, fun _ => ?_, fun held cursor short => ?_⟩
    · exact (Inventory.make_of_unchanged rfl).trans v.withCurrent_current
    · exact absurd (idle held cursor) (Int.not_le.mpr short)
  · obtain ⟨held, cursor, short⟩ : ∃ held, v.cursor = some held ∧ held.size < 64 := by
      simpa using idle
    have gathered := Container.get_store_gather held solid short
    rw [Inventory.doubleClick_of_short inside cursor short] at planned
    generalize v.current.gather held = result at planned gathered
    obtain ⟨ts, count⟩ := result
    obtain ⟨rfl, moves, turns, total, emptied⟩ := gathered
    obtain ⟨replies, clicked⟩ := Inventory.click_of_some shown planned
    refine ⟨_, clicked, fun idle' => absurd idle' idle, fun held' cursor' _ => ?_⟩
    obtain rfl : held' = held := Option.some.inj (cursor'.symm.trans cursor)
    dsimp only
    rw [Inventory.current_make]
    exact ⟨rfl, v.current.layout_store ts, moves, turns, total, emptied⟩

theorem double_click_gathers_from_hotbar :
    ∃ outcome, Inventory.stonesInHotbar.click id ⟨0, 10, 0, 1, 6, none⟩ false = .ok outcome ∧
      outcome.inventory.cursor = some ⟨1, 64, 0, none⟩ ∧
      outcome.inventory.current.get 38 = some ⟨1, 1, 0, none⟩ ∧
      outcome.inventory.current.get 10 = some ⟨1, 100, 0, none⟩ := by
  obtain ⟨outcome, clicked, -, gathers⟩ := double_click_gathers_in_turn Inventory.stonesInHotbar
    ⟨0, 10, 0, 1, 6, none⟩ false solid_stonesInHotbar rfl rfl rfl rfl rfl
  obtain ⟨gathered, -, moves, turns, -, emptied⟩ := gathers ⟨1, 5, 0, none⟩ rfl (by decide)
  obtain ⟨first, turns⟩ := turns.of_cons
  have first : moves 38 = 59 := first
  have second : moves 10 = 0 := by
    rw [turns.of_cons.1, first]
    rfl
  refine ⟨outcome, clicked, ?_, (emptied 38).trans ?_, (emptied 10).trans ?_⟩
  · rw [gathered]
    rfl
  · rw [first]
    rfl
  · rw [second]
    rfl

end VoxelServer
