import VoxelServer.Proofs.Inventory.Moving
import VoxelServer.Proofs.Inventory.Trading

/-!
# Plans of clicks

What the plan of a click amounts to, for every mode but that of drags. Some move items about, and
others drop them:

* `ClickPlan.Sound`: a plan that tells what the inventory holds, and lets no stack grow too large;
* `ClickPlan.Even`: a plan that neither makes nor loses items;
* `Slot.Drops`: what dropping items makes of a holder;
* `Inventory.plainClick_spec`, `Inventory.shiftClick_spec` and so on: the plan of a mode.
-/

namespace VoxelServer

open ItemStack (Kind)

/-- A holder has lost nothing, one item, or all of its stack. -/
inductive Slot.Drops : Slot → Slot → Prop
  | nothing (slot : Slot) : Drops slot slot
  | one (item : ItemStack) : Drops (some item) (item.ofCount? (item.size - 1))
  | all (item : ItemStack) : Drops (some item) none

namespace ClickPlan

/-- A plan that can be made as it stands, and lets no stack grow beyond 64 or the largest there
was. -/
structure Sound (plan : ClickPlan) (v : Inventory) : Prop where
  faithful : plan.Faithful v
  bounded : ∀ {bound}, 64 ≤ bound → v.AtMost bound → plan.AtMost bound

/-- A plan that neither makes nor loses items of any kind. -/
def Even (plan : ClickPlan) : Prop := ∀ {p}, Kind p → plan.gain p = 0

end ClickPlan

namespace Inventory

variable {v : Inventory} {plan : ClickPlan} {slot : Int16} {button : Int8}

theorem slot?_eq_some {index : Nat} {held : Slot} (found : v.slot? slot = some (index, held)) :
    index < v.current.size ∧ held = v.current.get index ∧ (index : Int) = slot.toInt := by
  obtain ⟨i, inside, same⟩ := Option.map_eq_some_iff.mp found
  cases same
  obtain ⟨low, same⟩ := Container.index?_eq_some inside
  exact ⟨low, rfl, same⟩

/-- A plan that changes one slot. -/
theorem sound_of_single {kind : ClickKind} {cursor now : Slot} {index : Nat}
    (inside : index < v.current.size) (properCursor : cursor.Proper) (properSlot : now.Proper)
    (bounded : ∀ {bound}, 64 ≤ bound → v.AtMost bound → cursor.size ≤ bound ∧ now.size ≤ bound) :
    ClickPlan.Sound
      { kind, cursor := ⟨v.cursor, cursor⟩, slots := [⟨index, v.current.get index, now⟩] } v where
  faithful := ⟨rfl, properCursor, Container.faithful_single ⟨inside, rfl, properSlot⟩⟩
  bounded high least := by
    obtain ⟨cursor, slot⟩ := bounded high least
    exact ⟨cursor, by simpa using slot⟩

/-- A plan that changes nothing but the cursor. -/
theorem sound_of_cursor {kind : ClickKind} {cursor : Slot} (proper : cursor.Proper)
    (bounded : ∀ {bound}, 64 ≤ bound → v.AtMost bound → cursor.size ≤ bound) :
    ClickPlan.Sound { kind, cursor := ⟨v.cursor, cursor⟩, slots := [] } v where
  faithful := ⟨rfl, proper, Container.faithful_nil _⟩
  bounded high least := ⟨bounded high least, by simp⟩

/-- A plan that changes nothing at all. -/
theorem unchanged_spec (hv : v.Proper) (kind : ClickKind) :
    ClickPlan.Sound { kind, cursor := .unchanged v.cursor, slots := [] } v ∧
      ClickPlan.Even { kind, cursor := .unchanged v.cursor, slots := [] } :=
  ⟨sound_of_cursor hv.cursor fun _ least => least.cursor, fun _ => by
    simp [ClickPlan.gain, Transaction.unchanged]⟩

/-! ## Moving items about -/

theorem plainClick_spec (hv : v.Proper) (planned : v.plainClick slot button = some plan) :
    plan.Sound v ∧ plan.Even := by
  obtain ⟨⟨index, held⟩, found, planned⟩ := Option.bind_eq_some_iff.mp planned
  obtain ⟨pressed, -, planned⟩ := Option.bind_eq_some_iff.mp planned
  obtain ⟨inside, rfl, -⟩ := slot?_eq_some found
  have trade := trade_exchange pressed hv.cursor (hv.slots index)
  dsimp only at planned
  generalize pressed.exchange v.cursor (v.current.get index) = result at trade planned
  obtain ⟨cursor, replacement⟩ := result
  cases planned
  cases replacement with
  | none =>
    refine ⟨sound_of_cursor trade.properCursor fun high least => ?_, fun kind => ?_⟩
    · exact (trade.bounded high least.cursor (least.slots index)).1
    · have even := trade.even kind
      simp only [Option.getD_none] at even
      simp only [ClickPlan.gain, Option.toList_none, List.map_nil, gain_nil]
      omega
  | some now =>
    refine ⟨sound_of_single inside trade.properCursor trade.properSlot fun high least => ?_,
      fun kind => ?_⟩
    · exact trade.bounded high least.cursor (least.slots index)
    · have even := trade.even kind
      simp only [Option.getD_some] at even
      simp only [ClickPlan.gain, Option.toList_some, List.map_cons, List.map_nil, gain_cons,
        gain_nil]
      omega

theorem nodup_shiftTargets (c : Container) (index : Nat) : (c.shiftTargets index).Nodup := by
  unfold Container.shiftTargets
  split
  · split
    · exact List.nodup_range'
    split
    · exact List.nodup_range'
    split
    · exact List.nodup_range'
    · exact List.nodup_nil
  split
  · exact (List.reverse_perm _).nodup_iff.mpr List.nodup_range'
  · exact List.nodup_range

theorem shiftClick_spec (hv : v.Proper) (planned : v.shiftClick slot button = some plan) :
    plan.Sound v ∧ plan.Even := by
  obtain ⟨pressed, -, planned⟩ := Option.bind_eq_some_iff.mp planned
  obtain ⟨⟨index, held⟩, found, planned⟩ := Option.bind_eq_some_iff.mp planned
  obtain ⟨inside, rfl, -⟩ := slot?_eq_some found
  dsimp only at planned
  cases holds : v.current.get index with
  | none =>
    rw [holds] at planned
    cases planned
    exact unchanged_spec hv _
  | some item =>
    rw [holds] at planned
    have proper := hv.slots index item holds
    have small := item.size_le
    have distinct : ((v.current.shiftTargets index).filter (· != index)).Nodup :=
      (nodup_shiftTargets v.current index).filter _
    obtain ⟨left, low, most, rest, moves, full⟩ := Container.moves_offer hv.slots proper distinct
    dsimp only at planned
    generalize v.current.offer _ item = offered at planned rest moves full
    obtain ⟨moved, stays⟩ := offered
    obtain rfl : stays = item.ofCount? left := rest
    rw [Slot.size_ofCount? item low (by omega)] at planned
    have fits {bound : Int} (high : 64 ≤ bound) : ∀ t ∈ moved, t.after.size ≤ bound :=
      fun t ht => Int.le_trans (full t ht) high
    by_cases some_moved : left < item.size
    · rw [if_pos some_moved] at planned
      cases planned
      obtain ⟨faithful, even⟩ := moves.takeFrom proper low most inside holds (by simp)
      refine ⟨⟨⟨rfl, hv.cursor, faithful⟩, fun high least => ⟨least.cursor, ?_⟩⟩, fun kind => ?_⟩
      · intro t ht
        obtain ht | ht := List.mem_append.mp ht
        · exact fits high t ht
        · have before := least.slots index
          rw [holds, Slot.size_some] at before
          rw [List.mem_singleton.mp ht, Slot.size_ofCount? item low (by omega)]
          omega
      · rw [ClickPlan.gain, even kind]
        simp only [Transaction.unchanged]
        omega
    · rw [if_neg some_moved] at planned
      cases planned
      rw [List.append_nil]
      refine ⟨⟨⟨rfl, hv.cursor, moves.faithful⟩, fun high least => ⟨least.cursor, fits high⟩⟩,
        fun kind => ?_⟩
      rw [ClickPlan.gain, moves.gain kind]
      simp only [Transaction.unchanged]
      split <;> omega

theorem hotbar?_lt {c : Container} (shaped : c.Shaped) {key hotbar : Nat}
    (found : c.hotbar? key = some hotbar) : hotbar < c.size := by
  unfold Container.hotbar? at found
  split at found
  · cases found
  rename_i key_lt
  have key_lt : ¬ 9 ≤ key := key_lt
  obtain ⟨player, size⟩ | ⟨other, size⟩ := shaped
  · have size : c.size = 46 := size
    rw [if_pos (beq_iff_eq.mpr player)] at found
    cases found
    omega
  · rw [if_neg (by simpa using other)] at found
    cases found
    have length : Container.mainSlots.length = 27 := rfl
    omega

theorem numberClick_spec (hv : v.Proper) (planned : v.numberClick slot button = some plan) :
    plan.Sound v ∧ plan.Even := by
  unfold numberClick at planned
  split at planned
  · cases planned
  obtain ⟨⟨index, held⟩, found, planned⟩ := Option.bind_eq_some_iff.mp planned
  obtain ⟨inside, rfl, -⟩ := slot?_eq_some found
  obtain ⟨hotbar, key, planned⟩ := Option.bind_eq_some_iff.mp planned
  have reachable := hotbar?_lt hv.shaped key
  dsimp only at planned
  split at planned
  · cases planned
    exact unchanged_spec hv _
  · rename_i swaps
    have differ : index ≠ hotbar := by
      rintro rfl
      simp at swaps
    cases planned
    have there := Container.faithful_single
      (t := ⟨index, v.current.get index, v.current.get hotbar⟩) ⟨inside, rfl, hv.slots hotbar⟩
    have back := Container.faithful_single
      (t := ⟨hotbar, v.current.get hotbar, v.current.get index⟩) ⟨reachable, rfl, hv.slots index⟩
    refine ⟨⟨⟨rfl, hv.cursor, ?_⟩, fun _ least => ⟨least.cursor, ?_⟩⟩, fun _ => ?_⟩
    · exact there.append back (by simpa using differ)
    · simpa using ⟨least.slots hotbar, least.slots index⟩
    · simp only [ClickPlan.gain, Transaction.unchanged, gain_cons, gain_nil]
      omega

theorem doubleClick_spec (hv : v.Proper) (planned : v.doubleClick slot button = some plan) :
    plan.Sound v ∧ plan.Even := by
  have nothing := unchanged_spec hv
  unfold doubleClick at planned
  split at planned
  · cases planned
  obtain ⟨-, -, planned⟩ := Option.bind_eq_some_iff.mp planned
  cases cursor : v.cursor with
  | none =>
    rw [cursor] at planned nothing
    cases planned
    exact nothing _
  | some held =>
    rw [cursor] at planned nothing
    dsimp only at planned
    split at planned
    · cases planned
      exact nothing _
    · rename_i short
      have short : ¬ 64 ≤ held.size := short
      have proper := hv.cursor held cursor
      have positive := proper.positive
      obtain ⟨more, most, moves, less⟩ := Container.moves_gather hv.slots
        (show held.size ≤ 64 by omega)
      have most : _ ≤ (64 : Int) := most
      generalize v.current.gather held = gathered at planned more most moves less
      obtain ⟨ts, count⟩ := gathered
      dsimp only at planned more most moves less
      cases planned
      refine ⟨⟨⟨cursor.symm, ?_, moves.faithful⟩, fun high least => ⟨?_, ?_⟩⟩, fun kind => ?_⟩
      · exact Slot.proper_some.mpr (proper.withSize (by omega) (by omega))
      · rw [Slot.size_some, held.size_withSize (by omega) (by omega)]
        omega
      · intro t ht
        have before := (moves.faithful.allowed t ht).before
        exact Int.le_trans (less t ht) (before ▸ least.slots t.slot)
      · rw [ClickPlan.gain, moves.gain kind, Slot.amount_withSize kind held (by omega) (by omega),
          Slot.amount_some]
        split <;> omega

/-! ## Dropping items -/

theorem bounded_of_drops {held now : Slot} (hh : held.Proper) (drops : held.Drops now) :
    now.Proper ∧ ∀ {bound : Int}, 64 ≤ bound → held.size ≤ bound → now.size ≤ bound := by
  cases drops with
  | nothing => exact ⟨hh, fun _ least => least⟩
  | one item =>
    have proper := Slot.proper_some.mp hh
    have := proper.positive
    have := item.size_le
    refine ⟨Slot.proper_ofCount? proper (by omega), fun _ least => ?_⟩
    rw [Slot.size_some] at least
    rw [Slot.size_ofCount? item (by omega) (by omega)]
    omega
  | all item =>
    refine ⟨Slot.proper_none, fun high _ => ?_⟩
    rw [Slot.size_none]
    omega

theorem outsideClick_spec (hv : v.Proper) (planned : v.outsideClick button = some plan) :
    plan.Sound v ∧ plan.slots = [] ∧ v.cursor.Drops plan.cursor.after := by
  have sound {kind : ClickKind} {cursor : Slot} (drops : v.cursor.Drops cursor) :
      ClickPlan.Sound { kind, cursor := ⟨v.cursor, cursor⟩, slots := [] } v := by
    obtain ⟨proper, bounded⟩ := bounded_of_drops hv.cursor drops
    exact sound_of_cursor proper fun high least => bounded high least.cursor
  obtain ⟨pressed, -, planned⟩ := Option.bind_eq_some_iff.mp planned
  cases pressed with
  | primary =>
    cases planned
    have drops : v.cursor.Drops none := by
      cases v.cursor with
      | none => exact .nothing none
      | some item => exact .all item
    exact ⟨sound drops, rfl, drops⟩
  | secondary =>
    cases planned
    have drops : v.cursor.Drops (v.cursor.bind fun held => held.ofCount? (held.size - 1)) := by
      cases v.cursor with
      | none => exact .nothing none
      | some item => exact .one item
    exact ⟨sound drops, rfl, drops⟩

theorem dropClick_spec (hv : v.Proper) (planned : v.dropClick slot button = some plan) :
    plan.Sound v ∧ plan.cursor.after = v.cursor ∧
      (plan.slots = [] ∨ ∃ (index : Nat) (now : Slot), (index : Int) = slot.toInt ∧
        plan.slots = [⟨index, v.current.get index, now⟩] ∧ (v.current.get index).Drops now) := by
  obtain ⟨pressed, -, planned⟩ := Option.bind_eq_some_iff.mp planned
  obtain ⟨⟨index, held⟩, found, planned⟩ := Option.bind_eq_some_iff.mp planned
  obtain ⟨inside, rfl, same⟩ := slot?_eq_some found
  have dropped {kind : ClickKind} {item : ItemStack} {now : Slot}
      (holds : v.current.get index = some item) (drops : Slot.Drops (some item) now) :
      ClickPlan.Sound
        { kind, cursor := .unchanged v.cursor, slots := [⟨index, some item, now⟩] } v ∧
        (v.current.get index).Drops now := by
    rw [← holds] at drops ⊢
    obtain ⟨proper, bounded⟩ := bounded_of_drops (hv.slots index) drops
    exact ⟨sound_of_single inside hv.cursor proper fun high least =>
      ⟨least.cursor, bounded high (least.slots index)⟩, drops⟩
  cases planned
  cases holds : v.current.get index with
  | none => exact ⟨(unchanged_spec hv _).1, rfl, .inl rfl⟩
  | some item =>
    cases pressed with
    | primary =>
      obtain ⟨sound, drops⟩ := dropped holds (.one item)
      exact ⟨sound, rfl, .inr ⟨index, _, same, by rw [holds]; rfl, drops⟩⟩
    | secondary =>
      obtain ⟨sound, drops⟩ := dropped holds (.all item)
      exact ⟨sound, rfl, .inr ⟨index, _, same, by rw [holds]; rfl, drops⟩⟩

theorem middleClick_spec (hv : v.Proper) (slot : Int16) (creative : Bool) :
    (v.middleClick slot creative).Sound v ∧ (v.middleClick slot creative).slots = [] ∧
      ((v.middleClick slot creative).cursor.after = v.cursor ∨
        creative = true ∧ v.cursor = none ∧
          ∃ index item, v.slot? slot = some (index, some item)) := by
  have kept : ClickPlan.Sound
      { kind := .middle, cursor := ⟨v.cursor, v.cursor⟩, slots := [] } v :=
    sound_of_cursor hv.cursor fun _ least => least.cursor
  unfold middleClick
  cases creative with
  | false => exact ⟨kept, rfl, .inl rfl⟩
  | true =>
    cases cursor : v.cursor with
    | some held =>
      rw [cursor] at kept
      exact ⟨kept, rfl, .inl rfl⟩
    | none =>
      rw [cursor] at kept
      cases found : v.slot? slot with
      | none => exact ⟨kept, rfl, .inl rfl⟩
      | some place =>
        obtain ⟨index, held⟩ := place
        cases held with
        | none => exact ⟨kept, rfl, .inl rfl⟩
        | some item =>
          obtain ⟨inside, holds, -⟩ := slot?_eq_some found
          have proper := hv.slots index item holds.symm
          have full : (item.withSize ItemStack.maxCount).size = 64 :=
            item.size_withSize (by decide) (by decide)
          have copied : ClickPlan.Sound
              { kind := .middle, cursor := ⟨v.cursor, some (item.withSize ItemStack.maxCount)⟩,
                slots := [] } v :=
            sound_of_cursor (Slot.proper_some.mpr (proper.withSize (by decide) (by decide)))
              fun high _ => by rw [Slot.size_some, full]; exact high
          rw [cursor] at copied
          exact ⟨copied, rfl, .inr ⟨rfl, rfl, index, item, rfl⟩⟩

end Inventory

end VoxelServer
