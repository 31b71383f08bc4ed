import VoxelServer.Proofs.Inventory.Holdings

/-!
# Dealing out a stack

The end of a drag gives every slot of the drag its share, and takes for granted that what lies
there is of the same kind:

* `Container.Dealt`: a slot that got a share;
* `misfit`: how many items of a kind are made, or lost, where that was wrong;
* `Container.deals_deal`: what dealing out a stack brings in;
* `misfit_eq_zero_iff`: nothing is made or lost only where it was right.
-/

namespace VoxelServer

open ItemStack (Kind)

/-- How many items of a kind are made, or lost, where a stack is put over what a slot holds. -/
def SlotTransaction.misfit (p : ItemStack → Bool) (item : ItemStack) (t : SlotTransaction) : Int :=
  (if p item then t.before.size else 0) - t.before.amount p

def misfit (p : ItemStack → Bool) (item : ItemStack) : List SlotTransaction → Int
  | [] => 0
  | t :: ts => t.misfit p item + misfit p item ts

section Misfit

variable {p : ItemStack → Bool} {item : ItemStack} {t : SlotTransaction}
  {ts : List SlotTransaction}

@[simp] theorem misfit_cons (t : SlotTransaction) (ts : List SlotTransaction) :
    misfit p item (t :: ts) = t.misfit p item + misfit p item ts := rfl

/-- In a slot items of the stack's kind are only made, and those of other kinds only lost. -/
theorem misfit_one (p : ItemStack → Bool) (item : ItemStack) (proper : t.before.Proper) :
    (p item = true → 0 ≤ t.misfit p item) ∧ (p item = false → t.misfit p item ≤ 0) ∧
      (t.misfit p item = 0 ↔ ∀ found ∈ t.before, p found = p item) := by
  unfold SlotTransaction.misfit
  cases before : t.before with
  | none => simp
  | some found =>
    have positive := (proper found before).positive
    cases like : p item <;> cases other : p found <;>
      simp [Slot.amount_some, other] <;> omega

theorem misfit_sign (p : ItemStack → Bool) (item : ItemStack)
    (proper : ∀ t ∈ ts, t.before.Proper) :
    (p item = true → 0 ≤ misfit p item ts) ∧ (p item = false → misfit p item ts ≤ 0) := by
  induction ts with
  | nil => simp [misfit]
  | cons t ts ih =>
    obtain ⟨gains, losses, -⟩ := misfit_one p item (proper t List.mem_cons_self)
    obtain ⟨gain, loss⟩ := ih fun u hu => proper u (List.mem_cons_of_mem _ hu)
    rw [misfit_cons]
    exact ⟨fun like => Int.add_nonneg (gains like) (gain like), fun other => by
      have := losses other
      have := loss other
      omega⟩

/-- What is made in one slot is never made up for by another one. -/
theorem misfit_eq_zero_iff (proper : ∀ t ∈ ts, t.before.Proper) :
    misfit p item ts = 0 ↔ ∀ t ∈ ts, ∀ found ∈ t.before, p found = p item := by
  induction ts with
  | nil => simp [misfit]
  | cons t ts ih =>
    have others : ∀ u ∈ ts, u.before.Proper := fun u hu => proper u (List.mem_cons_of_mem _ hu)
    obtain ⟨gains, losses, one⟩ := misfit_one p item (proper t List.mem_cons_self)
    obtain ⟨gain, loss⟩ := misfit_sign p item others
    rw [List.forall_mem_cons, ← one, ← ih others, misfit_cons]
    constructor
    · intro balanced
      cases like : p item with
      | true =>
        have := gains like
        have := gain like
        omega
      | false =>
        have := losses like
        have := loss like
        omega
    · rintro ⟨here, there⟩
      rw [here, there]
      rfl

end Misfit

namespace Container

variable {c : Container} {item : ItemStack} {share left : Int} {slots : List Nat}

theorem deal_cons_of_none {slot : Nat}
    (none_placed : min (min share (ItemStack.maxCount - (c.get slot).size)) left ≤ 0) :
    c.deal item share (slot :: slots) left = c.deal item share slots left := by
  rw [deal, if_pos none_placed]

theorem deal_cons_of_some {slot : Nat} {placed : Int}
    (dealt : min (min share (ItemStack.maxCount - (c.get slot).size)) left = placed)
    (some_placed : 0 < placed) :
    c.deal item share (slot :: slots) left =
      let (ts, rest) := c.deal item share slots (left - placed)
      (⟨slot, c.get slot, some (item.withSize ((c.get slot).size + placed))⟩ :: ts, rest) := by
  rw [deal, dealt, if_neg (by omega)]

/-- A slot that a drag puts items into, and what it holds then. -/
structure Dealt (c : Container) (item : ItemStack) (slots : List Nat) (t : SlotTransaction) :
    Prop where
  among : t.slot ∈ slots
  before : t.before = c.get t.slot
  after : ∃ n, t.after = some (item.withSize n)
  more : t.before.size < t.after.size
  fits : t.after.size ≤ ItemStack.maxCount

theorem Dealt.skip {t : SlotTransaction} (slot : Nat) (h : c.Dealt item slots t) :
    c.Dealt item (slot :: slots) t :=
  { h with among := List.mem_cons_of_mem _ h.among }

/-- Transactions that give some slots their shares, and leave `rest` of `left` items. -/
structure Deals (c : Container) (item : ItemStack) (slots : List Nat) (left rest : Int)
    (ts : List SlotTransaction) : Prop where
  faithful : c.Faithful ts
  dealt : ∀ t ∈ ts, c.Dealt item slots t
  low : 0 ≤ rest
  high : rest ≤ left
  gain : ∀ {p}, Kind p →
    VoxelServer.gain p ts = (if p item then left - rest else 0) + misfit p item ts

namespace Deals

variable {rest : Int} {ts : List SlotTransaction}

theorem nil (low : 0 ≤ left) : c.Deals item [] left left [] :=
  ⟨c.faithful_nil, by simp, low, Int.le_refl left, by simp [misfit]⟩

theorem skip (slot : Nat) (h : c.Deals item slots left rest ts) :
    c.Deals item (slot :: slots) left rest ts :=
  { h with dealt := fun t ht => (h.dealt t ht).skip slot }

/-- One more slot, before those there are. -/
theorem cons {slot : Nat} {placed : Int} (held : (c.get slot).Proper) (proper : item.Proper)
    (inside : slot < c.size) (fresh : slot ∉ slots) (some_placed : 0 < placed)
    (room : (c.get slot).size + placed ≤ 64) (h : c.Deals item slots (left - placed) rest ts) :
    c.Deals item (slot :: slots) left rest
      (⟨slot, c.get slot, some (item.withSize ((c.get slot).size + placed))⟩ :: ts) := by
  obtain ⟨faithful, dealt, low, high, gained⟩ := h
  have nonneg := held.size_nonneg
  have size : (item.withSize ((c.get slot).size + placed)).size = (c.get slot).size + placed :=
    item.size_withSize (by omega) (by omega)
  have here : c.Allows ⟨slot, c.get slot, some (item.withSize ((c.get slot).size + placed))⟩ :=
    ⟨inside, rfl, Slot.proper_some.mpr (proper.withSize (by omega) (by omega))⟩
  refine ⟨?_, ?_, low, by omega, fun kind => ?_⟩
  · refine .cons here faithful fun u hu same => ?_
    have same : slot = u.slot := same
    exact fresh (same ▸ (dealt u hu).among)
  · intro t ht
    obtain rfl | ht := List.mem_cons.mp ht
    · refine ⟨List.mem_cons_self, rfl, ⟨_, rfl⟩, ?_, ?_⟩ <;> rw [Slot.size_some, size]
      · show (c.get slot).size < _
        omega
      · exact room
    · exact (dealt t ht).skip slot
  · rw [gain_cons, misfit_cons, gained kind, SlotTransaction.misfit,
      Slot.amount_withSize kind item (by omega) (by omega)]
    dsimp only
    split <;> omega

end Deals

/-- Dealing out a stack names every slot once at most, and keeps what it does not deal out. -/
theorem deals_deal (share left : Int) (all : c.StacksProper) (proper : item.Proper)
    (distinct : slots.Nodup) (inside : ∀ slot ∈ slots, slot < c.size) (low : 0 ≤ left) :
    c.Deals item slots left (c.deal item share slots left).2
      (c.deal item share slots left).1 := by
  induction slots generalizing left with
  | nil => exact .nil low
  | cons slot slots ih =>
    obtain ⟨fresh, distinct⟩ := List.nodup_cons.mp distinct
    have others : ∀ s ∈ slots, s < c.size := fun s hs => inside s (List.mem_cons_of_mem _ hs)
    by_cases none_placed : min (min share (ItemStack.maxCount - (c.get slot).size)) left ≤ 0
    · rw [deal_cons_of_none none_placed]
      exact (ih left distinct others low).skip slot
    generalize placing : min (min share (ItemStack.maxCount - (c.get slot).size)) left = placed
      at none_placed
    have room : (c.get slot).size + placed ≤ 64 := by
      rw [← placing, ItemStack.maxCount]
      omega
    have enough : placed ≤ left := placing ▸ Int.min_le_right _ _
    rw [deal_cons_of_some placing (by omega)]
    exact (ih (left - placed) distinct others (by omega)).cons (all slot) proper
      (inside slot List.mem_cons_self) fresh (by omega) room

end Container

end VoxelServer
