import Mathlib.Algebra.Order.BigOperators.Group.List
import Mathlib.Algebra.Order.Ring.Int
import VoxelServer.Proofs.Inventory.Supply

/-!
# Slots that take turns

Items are spread over slots and gathered from them one slot after the other: each takes or gives as
much as it can, and the next one has its turn with what is left.

* `InTurn`: how many items each slot of a list moves, if all of them wait for their turn;
* `Container.pass`: the transactions that move them;
* `Container.get_store_pass`: what is in every slot once these are made.
-/

namespace VoxelServer

/-- Of all that is `offered` every slot moves some items, up to its limit. A slot has its turn only
once those before it are through with theirs. -/
structure InTurn (slots : List Nat) (limit : Nat → Int) (offered : Int) (moves : Nat → Int) :
    Prop where
  total : (slots.map moves).sum = min offered (slots.map limit).sum
  within : ∀ slot ∈ slots, 0 ≤ moves slot ∧ moves slot ≤ limit slot
  ordered : slots.Pairwise fun earlier later => 0 < moves later → moves earlier = limit earlier

namespace InTurn

variable {slots : List Nat} {slot : Nat} {limit moves : Nat → Int} {offered : Int}

theorem sum_nonneg (low : ∀ slot ∈ slots, 0 ≤ limit slot) : 0 ≤ (slots.map limit).sum := by
  refine List.sum_nonneg ?_
  intro n mem
  obtain ⟨slot, there, rfl⟩ := List.mem_map.mp mem
  exact low slot there

theorem le_sum (low : ∀ slot ∈ slots, 0 ≤ limit slot) (mem : slot ∈ slots) :
    limit slot ≤ (slots.map limit).sum := by
  refine List.single_le_sum ?_ _ (List.mem_map_of_mem mem)
  intro n there
  obtain ⟨other, inside, rfl⟩ := List.mem_map.mp there
  exact low other inside

theorem nil (low : 0 ≤ offered) : InTurn [] limit offered moves :=
  ⟨by simp [low], by simp, .nil⟩

theorem congr {other : Nat → Int} (h : InTurn slots limit offered moves)
    (same : ∀ slot ∈ slots, other slot = moves slot) : InTurn slots limit offered other := by
  constructor
  · rw [List.map_congr_left same]
    exact h.total
  · intro slot mem
    rw [same slot mem]
    exact h.within slot mem
  · refine h.ordered.imp_of_mem ?_
    intro earlier later first second done
    rw [same earlier first, same later second]
    exact done

/-- Nobody moves anything of nothing. -/
theorem zero (low : ∀ slot ∈ slots, 0 ≤ limit slot) : InTurn slots limit 0 fun _ => 0 := by
  have all := sum_nonneg low
  constructor
  · rw [List.map_const', List.sum_replicate]
    simp [all]
  · intro slot mem
    exact ⟨Int.le_refl 0, low slot mem⟩
  · exact List.pairwise_of_forall fun _ _ more => absurd more (Int.lt_irrefl 0)

/-- One more slot, before those there are, which move what it leaves. -/
theorem cons (low : 0 ≤ offered) (room : 0 ≤ limit slot)
    (here : moves slot = min offered (limit slot))
    (rest : InTurn slots limit (offered - moves slot) moves) :
    InTurn (slot :: slots) limit offered moves := by
  have others := sum_nonneg fun s mem => Int.le_trans (rest.within s mem).1 (rest.within s mem).2
  have whole := rest.total
  constructor
  · rw [List.map_cons, List.map_cons, List.sum_cons, List.sum_cons, whole, here]
    omega
  · intro other mem
    obtain rfl | mem := List.mem_cons.mp mem
    · omega
    · exact rest.within other mem
  · refine List.pairwise_cons.mpr ⟨?_, rest.ordered⟩
    -- whoever has a turn later takes from what is left
    intro later mem more
    have part := le_sum (fun s there => (rest.within s there).1) mem
    omega

/-- The first slot moves as much as it can, and the others move what it leaves. -/
theorem of_cons (h : InTurn (slot :: slots) limit offered moves) :
    moves slot = min offered (limit slot) ∧ InTurn slots limit (offered - moves slot) moves := by
  obtain ⟨⟨low, high⟩, within⟩ := List.forall_mem_cons.mp h.within
  obtain ⟨first, ordered⟩ := List.pairwise_cons.mp h.ordered
  have total := h.total
  have rest := sum_nonneg fun s mem => (within s mem).1
  have most : (slots.map moves).sum ≤ (slots.map limit).sum :=
    List.sum_le_sum fun s mem => (within s mem).2
  rw [List.map_cons, List.map_cons, List.sum_cons, List.sum_cons] at total
  have here : moves slot = min offered (limit slot) := by
    by_cases later : ∃ s ∈ slots, 0 < moves s
    · obtain ⟨s, mem, more⟩ := later
      have done := first s mem more
      have part := le_sum (fun s mem => (within s mem).1) mem
      omega
    · have idle : ∀ s ∈ slots, moves s ≤ 0 := fun s mem =>
        Int.not_lt.mp fun more => later ⟨s, mem, more⟩
      have nothing : (slots.map moves).sum ≤ 0 := by simpa using List.sum_le_sum idle
      omega
  exact ⟨here, by omega, within, ordered⟩

/-- If there is enough for all of them, each slot reaches its limit. -/
theorem eq_limit (h : InTurn slots limit offered moves) (enough : (slots.map limit).sum ≤ offered)
    (mem : slot ∈ slots) : moves slot = limit slot := by
  induction slots generalizing offered with
  | nil => cases mem
  | cons first slots ih =>
    obtain ⟨here, rest⟩ := h.of_cons
    have low := sum_nonneg fun s mem => Int.le_trans (rest.within s mem).1 (rest.within s mem).2
    rw [List.map_cons, List.sum_cons] at enough
    obtain rfl | mem := List.mem_cons.mp mem
    · omega
    · exact ih rest (by omega) mem

/-- If each slot moves at most one item, those move one that come first. -/
theorem eq_one (h : InTurn slots limit offered moves) (one : ∀ slot ∈ slots, limit slot = 1)
    (distinct : slots.Nodup) (low : 0 ≤ offered) (mem : slot ∈ slots) :
    moves slot = if slot ∈ slots.take offered.toNat then 1 else 0 := by
  induction slots generalizing offered with
  | nil => cases mem
  | cons first slots ih =>
    obtain ⟨here, rest⟩ := h.of_cons
    obtain ⟨fresh, distinct⟩ := List.nodup_cons.mp distinct
    obtain ⟨one_here, one⟩ := List.forall_mem_cons.mp one
    by_cases none_left : offered = 0
    · have nothing := h.within slot mem
      have all := le_sum (fun s there => (h.within s there).1) mem
      have total := h.total
      subst none_left
      simp only [Int.toNat_zero, List.take_zero, List.not_mem_nil, if_false]
      omega
    · have count : offered.toNat = (offered - moves first).toNat + 1 := by omega
      rw [count, List.take_succ_cons]
      obtain rfl | mem := List.mem_cons.mp mem
      · rw [if_pos List.mem_cons_self]
        omega
      · have other : slot ≠ first := fun same => fresh (same ▸ mem)
        rw [ih rest one distinct (by omega) mem]
        simp [other]

end InTurn

namespace Container

variable {c : Container} {slot : Nat} {slots : List Nat} {left : Int}

/-! ## Storing one transaction after others -/

theorem store_append (c : Container) (ts us : List SlotTransaction) :
    (c.store (ts ++ us)).1 = ((c.store ts).1.store us).1 := by
  induction ts generalizing c with
  | nil => rfl
  | cons t ts ih =>
    rw [List.cons_append, store, store]
    cases c.set? t.slot t.after with
    | none => exact ih c
    | some d => exact ih d

theorem lastFor_eq_none {ts : List SlotTransaction} (fresh : ∀ t ∈ ts, t.slot ≠ slot) :
    lastFor slot ts = none := by
  cases last : lastFor slot ts with
  | none => rfl
  | some t =>
    obtain ⟨mem, same⟩ := slot_of_lastFor last
    exact absurd same (fresh t mem)

/-- What is in a slot if the first of some transactions is the only one for its own slot. -/
theorem get_store_cons {ts : List SlotTransaction} (before : Slot) {after : Slot}
    (inside : slot < c.size) (solid : after.Solid) (fresh : ∀ t ∈ ts, t.slot ≠ slot) (other : Nat) :
    (c.store (⟨slot, before, after⟩ :: ts)).1.get other =
      if other = slot then after else (c.store ts).1.get other := by
  rw [get_store, get_store, lastFor_cons]
  by_cases named : other = slot
  · subst named
    simp [lastFor_eq_none fresh, inside, solid.nonempty]
  · simp [named, Ne.symm named]

/-! ## Passes -/

/-- Goes over slots, each of which moves as much as it can of what is left. `after` says what a slot
holds once it has moved some items. Also says how many are left in the end. -/
def pass (c : Container) (limit : Nat → Int) (after : Nat → Int → Slot) :
    (slots : List Nat) → (left : Int) → List SlotTransaction × Int
  | [], left => ([], left)
  | slot :: slots, left =>
    if left ≤ 0 then ([], left)
    else
      let moved := min left (limit slot)
      let (transactions, left) := pass c limit after slots (left - moved)
      (⟨slot, c.get slot, after slot moved⟩ :: transactions, left)

variable {limit : Nat → Int} {after : Nat → Int → Slot}

theorem pass_of_le (slots : List Nat) (done : left ≤ 0) :
    c.pass limit after slots left = ([], left) := by
  cases slots with
  | nil => rfl
  | cons slot slots => exact if_pos done

theorem pass_cons (slot : Nat) (slots : List Nat) (more : 0 < left) :
    c.pass limit after (slot :: slots) left =
      let moved := min left (limit slot)
      let (ts, rest) := c.pass limit after slots (left - moved)
      (⟨slot, c.get slot, after slot moved⟩ :: ts, rest) :=
  if_neg (Int.not_le.mpr more)

theorem pass_append (slots more : List Nat) (left : Int) :
    c.pass limit after (slots ++ more) left =
      let (ts, rest) := c.pass limit after slots left
      let (us, rest) := c.pass limit after more rest
      (ts ++ us, rest) := by
  induction slots generalizing left with
  | nil => rfl
  | cons slot slots ih =>
    by_cases done : left ≤ 0
    · simp [pass_of_le _ done]
    · rw [List.cons_append, pass_cons slot (slots ++ more) (Int.not_le.mp done),
        pass_cons slot slots (Int.not_le.mp done)]
      simp only [ih, List.cons_append]

theorem slot_of_mem_pass {t : SlotTransaction} (mem : t ∈ (c.pass limit after slots left).1) :
    t.slot ∈ slots := by
  induction slots generalizing left with
  | nil => cases mem
  | cons slot slots ih =>
    by_cases done : left ≤ 0
    · rw [pass_of_le _ done] at mem
      cases mem
    · rw [pass_cons _ _ (Int.not_le.mp done)] at mem
      obtain rfl | mem := List.mem_cons.mp mem
      · exact List.mem_cons_self
      · exact List.mem_cons_of_mem _ (ih mem)

/-- Different slots of the container, each of which can move items. -/
structure Movers (c : Container) (limit : Nat → Int) (after : Nat → Int → Slot)
    (slots : List Nat) : Prop where
  distinct : slots.Nodup
  inside : ∀ slot ∈ slots, slot < c.size
  space : ∀ slot ∈ slots, 0 < limit slot
  solid : ∀ slot ∈ slots, ∀ n, 0 < n → n ≤ limit slot → (after slot n).Solid
  idle : ∀ slot ∈ slots, after slot 0 = c.get slot

theorem Movers.tail (h : c.Movers limit after (slot :: slots)) : c.Movers limit after slots where
  distinct := (List.nodup_cons.mp h.distinct).2
  inside s mem := h.inside s (List.mem_cons_of_mem _ mem)
  space s mem := h.space s (List.mem_cons_of_mem _ mem)
  solid s mem := h.solid s (List.mem_cons_of_mem _ mem)
  idle s mem := h.idle s (List.mem_cons_of_mem _ mem)

theorem Movers.left_pass (h : c.Movers limit after slots) (low : 0 ≤ left) :
    (c.pass limit after slots left).2 = left - min left (slots.map limit).sum := by
  induction slots generalizing left with
  | nil => simp [pass, low]
  | cons slot slots ih =>
    have here := h.space slot List.mem_cons_self
    have others := InTurn.sum_nonneg fun s mem => Int.le_of_lt (h.tail.space s mem)
    rw [List.map_cons, List.sum_cons]
    by_cases done : left ≤ 0
    · rw [pass_of_le _ done]
      omega
    · rw [pass_cons _ _ (Int.not_le.mp done)]
      dsimp only
      rw [ih h.tail (by omega)]
      omega

/-- **A pass moves items in turn.** Once its transactions are made, each of its slots holds what it
does after so many items, and no other slot has changed. -/
theorem get_store_pass (h : c.Movers limit after slots) (low : 0 ≤ left) :
    ∃ moves, InTurn slots limit left moves ∧
      ∀ slot, (c.store (c.pass limit after slots left).1).1.get slot =
        if slot ∈ slots then after slot (moves slot) else c.get slot := by
  induction slots generalizing left with
  | nil => exact ⟨fun _ => 0, .nil low, fun _ => rfl⟩
  | cons first slots ih =>
    obtain ⟨fresh, -⟩ := List.nodup_cons.mp h.distinct
    have space : 0 < limit first := h.space first List.mem_cons_self
    by_cases done : left ≤ 0
    · obtain rfl : left = 0 := by omega
      refine ⟨fun _ => 0, .zero fun s mem => Int.le_of_lt (h.space s mem), fun slot => ?_⟩
      rw [pass_of_le _ done]
      split
      · rename_i mem
        exact (h.idle slot mem).symm
      · rfl
    obtain ⟨moves, turns, rest⟩ := @ih (left - min left (limit first)) h.tail (by omega)
    -- the other slots move what they would move if the first one were not there
    have others : ∀ s ∈ slots,
        (if s = first then min left (limit first) else moves s) = moves s := by
      intro s mem
      refine if_neg ?_
      rintro rfl
      exact fresh mem
    refine ⟨fun s => if s = first then min left (limit first) else moves s,
      .cons low (Int.le_of_lt space) (if_pos rfl) ?_, fun slot => ?_⟩
    · rw [if_pos rfl]
      exact turns.congr others
    · have solid := h.solid first List.mem_cons_self (min left (limit first)) (by omega) (by omega)
      have apart : ∀ t ∈ (c.pass limit after slots (left - min left (limit first))).1,
          t.slot ≠ first := by
        rintro t mem rfl
        exact fresh (slot_of_mem_pass mem)
      rw [pass_cons _ _ (Int.not_le.mp done)]
      dsimp only
      rw [get_store_cons _ (h.inside first List.mem_cons_self) solid apart, rest]
      by_cases named : slot = first <;> simp [named]

end Container

end VoxelServer
