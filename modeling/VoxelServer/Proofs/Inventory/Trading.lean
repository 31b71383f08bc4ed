import VoxelServer.Proofs.Inventory.Holdings

/-!
# Cursor and slot

A plain click lets the cursor trade with one slot. Items change sides, and none is made or lost:

* `Slot.Trade`: such a trade;
* `trade_exchange`: what either button does is one.
-/

namespace VoxelServer

open ItemStack (Kind)

/-- What was on the cursor and in a slot is there again, perhaps on the other side, and no stack
grows beyond 64. -/
structure Slot.Trade (held current cursor now : Slot) : Prop where
  properCursor : cursor.Proper
  properSlot : now.Proper
  even : ∀ {p}, Kind p → cursor.amount p + now.amount p = held.amount p + current.amount p
  bounded : ∀ {bound}, 64 ≤ bound → held.size ≤ bound → current.size ≤ bound →
    cursor.size ≤ bound ∧ now.size ≤ bound

namespace Slot

variable {held current : Slot} {item stack : ItemStack} {n : Int}

theorem Trade.refl (hh : held.Proper) (hc : current.Proper) : Trade held current held current :=
  ⟨hh, hc, fun _ => rfl, fun _ h₁ h₂ => ⟨h₁, h₂⟩⟩

theorem Trade.swap (hh : held.Proper) (hc : current.Proper) : Trade held current current held :=
  ⟨hc, hh, fun _ => Int.add_comm _ _, fun _ h₁ h₂ => ⟨h₂, h₁⟩⟩

/-- Part of a slot's stack goes to an empty cursor. -/
theorem Trade.take (proper : item.Proper) (low : 1 ≤ n) (most : n ≤ item.size) :
    Trade none (some item) (some (item.withSize n)) (item.ofCount? (item.size - n)) := by
  have := item.size_le
  refine ⟨proper_some.mpr (proper.withSize low (by omega)),
    proper_ofCount? proper (by omega), fun kind => ?_, fun _ _ fits => ?_⟩
  · rw [amount_withSize kind item (by omega) (by omega),
      amount_ofCount? kind item (by omega) (by omega), amount_none, amount_some]
    split <;> omega
  · rw [size_some] at fits
    rw [size_some, item.size_withSize (by omega) (by omega),
      size_ofCount? item (by omega) (by omega)]
    omega

/-- Part of the cursor's stack goes to an empty slot. -/
theorem Trade.place (proper : item.Proper) (low : 1 ≤ n) (most : n ≤ item.size) :
    Trade (some item) none (item.ofCount? (item.size - n)) (some (item.withSize n)) := by
  obtain ⟨slot, cursor, even, bounded⟩ := Trade.take proper low most
  refine ⟨cursor, slot, fun kind => ?_, fun high h₁ h₂ => (bounded high h₂ h₁).symm⟩
  have := even kind
  omega

/-- Part of the cursor's stack goes on top of a similar one, which holds 64 at most then or as many
as before. -/
theorem Trade.add (hh : item.Proper) (hc : stack.Proper) (similar : item.isSimilar stack = true)
    (low : 0 ≤ n) (most : n ≤ item.size) (fits : n = 0 ∨ stack.size + n ≤ 64) :
    Trade (some item) (some stack) (item.ofCount? (item.size - n))
      (some (stack.withSize (stack.size + n))) := by
  have := item.size_le
  have := stack.size_le
  have := hc.positive
  refine ⟨proper_ofCount? hh (by omega),
    proper_some.mpr (hc.withSize (by omega) (by omega)), fun kind => ?_, fun high h₁ h₂ => ?_⟩
  · rw [amount_withSize kind stack (by omega) (by omega),
      amount_ofCount? kind item (by omega) (by omega), amount_some, amount_some,
      kind.similar hh.tidy similar]
    split <;> omega
  · rw [size_some] at h₁ h₂
    rw [size_some, stack.size_withSize (by omega) (by omega),
      size_ofCount? item (by omega) (by omega)]
    omega

end Slot

open Slot in
/-- A plain click trades, whatever the cursor and the slot hold. -/
theorem trade_exchange (button : MouseButton) {held current : Slot} (hh : held.Proper)
    (hc : current.Proper) :
    Trade held current (button.exchange held current).1
      ((button.exchange held current).2.getD current) := by
  cases held with
  | none =>
    cases current with
    | none => exact .refl hh hc
    | some item =>
      have proper := proper_some.mp hc
      have := proper.positive
      cases button with
      | primary => exact .swap hh hc
      | secondary =>
        have half : 0 ≤ item.size.tdiv 2 ∧ 2 * item.size.tdiv 2 ≤ item.size := by
          rw [Int.tdiv_eq_ediv_of_nonneg (by omega)]
          omega
        exact .take proper (by omega) (by omega)
  | some item =>
    have proper := proper_some.mp hh
    have := proper.positive
    cases current with
    | none =>
      cases button with
      | primary =>
        have some_fit : 1 ≤ min item.size ItemStack.maxCount := by
          rw [ItemStack.maxCount]
          omega
        exact .place proper some_fit (Int.min_le_left _ _)
      | secondary => exact .place proper (Int.le_refl 1) proper.positive
    | some stack =>
      have proper' := proper_some.mp hc
      simp only [MouseButton.exchange]
      by_cases similar : item.isSimilar stack = true
      · rw [if_pos similar]
        cases button with
        | primary =>
          refine .add proper proper' similar ?_ ?_ ?_ <;> rw [ItemStack.maxCount] <;> omega
        | secondary =>
          by_cases full : stack.size ≥ ItemStack.maxCount
          · rw [if_pos full]
            exact .refl hh hc
          · rw [if_neg full]
            have room : ¬ 64 ≤ stack.size := full
            exact .add proper proper' similar (by omega) proper.positive (by omega)
      · rw [if_neg similar]
        exact .swap hh hc

end VoxelServer
