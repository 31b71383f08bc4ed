import VoxelServer.Proofs.Inventory.Holdings

/-!
# Moving stacks

Items go into several slots, or come out of them, in a plan of several transactions:

* `Container.Moves`: such a plan, with how many items it brings in;
* `Container.moves_fill`, `Container.moves_offer`: spreading a stack over slots;
* `Container.moves_drain`, `Container.moves_gather`: gathering similar items from slots.
-/

namespace VoxelServer

open ItemStack (Kind)

namespace Container

/-- Transactions for some slots that bring in `moved` items like the given one, and none of any
other kind. -/
structure Moves (c : Container) (item : ItemStack) (slots : List Nat) (ts : List SlotTransaction)
    (moved : Int) : Prop where
  faithful : c.Faithful ts
  among : ∀ t ∈ ts, t.slot ∈ slots
  gain : ∀ {p}, Kind p → VoxelServer.gain p ts = if p item then moved else 0

namespace Moves

variable {c : Container} {item : ItemStack} {slots : List Nat} {t : SlotTransaction}
  {ts us : List SlotTransaction} {m n : Int}

theorem nil : c.Moves item slots [] 0 := ⟨c.faithful_nil, by simp, by simp⟩

theorem skip (slot : Nat) (h : c.Moves item slots ts m) : c.Moves item (slot :: slots) ts m :=
  ⟨h.faithful, fun t ht => List.mem_cons_of_mem _ (h.among t ht), h.gain⟩

/-- One more slot, before those there are. -/
theorem cons (allowed : c.Allows t) (fresh : t.slot ∉ slots)
    (one : ∀ {p}, Kind p → t.after.amount p - t.before.amount p = if p item then n else 0)
    (h : c.Moves item slots ts m) : c.Moves item (t.slot :: slots) (t :: ts) (n + m) := by
  refine ⟨.cons allowed h.faithful fun u hu same => fresh (same ▸ h.among u hu), ?_, ?_⟩
  · intro u hu
    obtain rfl | hu := List.mem_cons.mp hu
    · exact List.mem_cons_self
    · exact List.mem_cons_of_mem _ (h.among u hu)
  · intro p kind
    rw [gain_cons, one kind, h.gain kind]
    split <;> omega

theorem append (first : c.Moves item slots ts m) (second : c.Moves item slots us n)
    (disjoint : ∀ t ∈ ts, ∀ u ∈ us, t.slot ≠ u.slot) :
    c.Moves item slots (ts ++ us) (m + n) := by
  refine ⟨first.faithful.append second.faithful disjoint, ?_, ?_⟩
  · intro t ht
    exact (List.mem_append.mp ht).elim (first.among t) (second.among t)
  · intro p kind
    rw [gain_append, first.gain kind, second.gain kind]
    split <;> omega

end Moves

variable {c : Container} {item : ItemStack}

/-! ## Into slots -/

/-- A number of items that may be put on top of what a slot holds. -/
structure Takes (c : Container) (item : ItemStack) (slot : Nat) (room : Int) : Prop where
  inside : slot < c.size
  positive : 0 < room
  fits : (c.get slot).size + room ≤ ItemStack.maxCount
  similar : ∀ found ∈ c.get slot, found.Proper ∧ found.isSimilar item = true

/-- Some of the items that a slot takes are put there. -/
theorem allows_of_takes {slot : Nat} {room placed : Int} (proper : item.Proper)
    (takes : c.Takes item slot room) (some_placed : 0 < placed) (fits : placed ≤ room) :
    c.Allows ⟨slot, c.get slot,
      some (((c.get slot).getD item).withSize ((c.get slot).size + placed))⟩ := by
  obtain ⟨inside, -, most, similar⟩ := takes
  have most : (c.get slot).size + room ≤ 64 := most
  refine ⟨inside, rfl, ?_⟩
  rw [Slot.proper_some]
  cases found : c.get slot with
  | none =>
    simp only [found, Slot.size_none] at most ⊢
    exact proper.withSize (by omega) (by omega)
  | some stack =>
    have proper := (similar stack found).1
    have := proper.positive
    simp only [found, Slot.size_some] at most ⊢
    exact proper.withSize (by omega) (by omega)

theorem gain_of_takes {slot : Nat} {room placed : Int} {p : ItemStack → Bool} (kind : Kind p)
    (takes : c.Takes item slot room) (some_placed : 0 < placed) (fits : placed ≤ room) :
    Slot.amount p (some (((c.get slot).getD item).withSize ((c.get slot).size + placed))) -
      (c.get slot).amount p = if p item then placed else 0 := by
  obtain ⟨-, -, most, similar⟩ := takes
  have most : (c.get slot).size + room ≤ 64 := most
  cases found : c.get slot with
  | none =>
    simp only [found, Slot.size_none] at most ⊢
    rw [Option.getD_none, Slot.amount_withSize kind item (by omega) (by omega)]
    simp
  | some stack =>
    obtain ⟨proper, similar⟩ := similar stack found
    have := proper.positive
    simp only [found, Slot.size_some] at most ⊢
    rw [Option.getD_some, Slot.amount_withSize kind stack (by omega) (by omega), Slot.amount_some,
      kind.similar proper.tidy similar]
    split <;> omega

variable {room? : Nat → Option Int} {targets : List Nat} {left : Int}

/-- What filling up slots does with the first of them: nothing is left for it, it has no room, or
it takes what fits. -/
theorem fill_cases (c : Container) (item : ItemStack) (room? : Nat → Option Int) (slot : Nat)
    (targets : List Nat) (left : Int) :
    (left ≤ 0 ∧ c.fill item room? (slot :: targets) left = ([], left)) ∨
    c.fill item room? (slot :: targets) left = c.fill item room? targets left ∨
    ∃ room, 0 < left ∧ room? slot = some room ∧
      c.fill item room? (slot :: targets) left =
        let stack := ((c.get slot).getD item).withSize ((c.get slot).size + min left room)
        let (ts, rest) := c.fill item room? targets (left - min left room)
        (⟨slot, c.get slot, some stack⟩ :: ts, rest) := by
  by_cases done : left ≤ 0
  · exact .inl ⟨done, by rw [fill, if_pos done]⟩
  · cases found : room? slot with
    | none => exact .inr (.inl (by rw [fill, if_neg done, found]))
    | some room =>
      exact .inr (.inr ⟨room, Int.not_le.mp done, rfl, by rw [fill, if_neg done, found]⟩)

/-- Filling up slots puts as many items there as it takes off the stack. -/
theorem moves_fill (left : Int) (proper : item.Proper) (distinct : targets.Nodup)
    (takes : ∀ slot room, room? slot = some room → c.Takes item slot room) :
    c.Moves item targets (c.fill item room? targets left).1
      (left - (c.fill item room? targets left).2) := by
  induction targets generalizing left with
  | nil =>
    rw [fill, Int.sub_self]
    exact .nil
  | cons slot targets ih =>
    obtain ⟨fresh, distinct⟩ := List.nodup_cons.mp distinct
    obtain ⟨-, same⟩ | same | ⟨room, some_left, found, same⟩ :=
      c.fill_cases item room? slot targets left
    · rw [same, Int.sub_self]
      exact .nil
    · rw [same]
      exact (ih left distinct).skip slot
    · have here := takes slot room found
      have positive := here.positive
      have moved := (ih (left - min left room) distinct).cons
        (allows_of_takes proper here (by omega) (Int.min_le_right left room)) fresh
        fun kind => gain_of_takes kind here (by omega) (Int.min_le_right left room)
      rw [show ∀ rest, min left room + (left - min left room - rest) = left - rest by omega]
        at moved
      rw [same]
      exact moved

theorem left_fill (c : Container) (item : ItemStack) (targets : List Nat) (left : Int)
    (low : 0 ≤ left) (takes : ∀ slot room, room? slot = some room → 0 < room) :
    0 ≤ (c.fill item room? targets left).2 ∧ (c.fill item room? targets left).2 ≤ left := by
  induction targets generalizing left with
  | nil => exact ⟨low, Int.le_refl left⟩
  | cons slot targets ih =>
    obtain ⟨-, same⟩ | same | ⟨room, some_left, found, same⟩ :=
      c.fill_cases item room? slot targets left
    · rw [same]
      exact ⟨low, Int.le_refl left⟩
    · rw [same]
      exact ih left low
    · have positive := takes slot room found
      obtain ⟨least, most⟩ := ih (left - min left room) (by omega)
      rw [same]
      exact ⟨least, Int.le_trans most (by omega)⟩

/-- Every slot that is filled up has room, and is not filled beyond 64. -/
theorem room_of_mem_fill
    (takes : ∀ slot room, room? slot = some room → c.Takes item slot room)
    {t : SlotTransaction} (mem : t ∈ (c.fill item room? targets left).1) :
    (∃ room, room? t.slot = some room) ∧ t.after.size ≤ ItemStack.maxCount := by
  induction targets generalizing left with
  | nil => cases mem
  | cons slot targets ih =>
    obtain ⟨-, same⟩ | same | ⟨room, some_left, found, same⟩ :=
      c.fill_cases item room? slot targets left
    · rw [same] at mem
      cases mem
    · rw [same] at mem
      exact ih mem
    · rw [same] at mem
      obtain rfl | mem := List.mem_cons.mp mem
      · obtain ⟨-, positive, fits, similar⟩ := takes slot room found
        have fits : (c.get slot).size + room ≤ 64 := fits
        have low := Slot.Proper.size_nonneg fun stack held => (similar stack held).1
        refine ⟨⟨room, found⟩, ?_⟩
        rw [Slot.size_some, ItemStack.size_withSize _ (by omega) (by omega)]
        exact show _ ≤ 64 by omega
      · exact ih mem

/-! ### Spreading a stack -/

theorem takes_of_topUpRoom? (item : ItemStack) (all : c.StacksProper) (slot : Nat) (room : Int)
    (found : c.topUpRoom? item slot = some room) : c.Takes item slot room := by
  unfold topUpRoom? at found
  split at found
  · rename_i stack held
    split at found
    · rename_i fits
      cases found
      obtain ⟨similar, below⟩ := Bool.and_eq_true_iff.mp fits
      have below : stack.size < 64 := of_decide_eq_true below
      have holds : c.get slot = some stack := by rw [get, held]; rfl
      refine ⟨(List.getElem?_eq_some_iff.mp held).1, ?_, ?_, ?_⟩
      · exact show 0 < 64 - stack.size by omega
      · rw [holds, Slot.size_some]
        omega
      · intro other same
        obtain rfl : stack = other := Option.some.inj (holds.symm.trans same)
        exact ⟨all slot stack holds, similar⟩
    · cases found
  · cases found

theorem takes_of_emptyRoom? (c : Container) (item : ItemStack) (slot : Nat) (room : Int)
    (found : c.emptyRoom? slot = some room) : c.Takes item slot room := by
  unfold emptyRoom? at found
  split at found
  · rename_i held
    cases found
    have holds : c.get slot = none := by rw [get, held]; rfl
    refine ⟨(List.getElem?_eq_some_iff.mp held).1, by decide, ?_, ?_⟩
    · rw [holds]
      exact Int.le_refl _
    · intro other same
      rw [holds] at same
      cases same
  · cases found

/-- Spreading a stack over slots puts as many items there as it takes off the stack, and fills no
slot beyond 64. -/
theorem moves_offer (all : c.StacksProper) (proper : item.Proper) (distinct : targets.Nodup) :
    ∃ left, 0 ≤ left ∧ left ≤ item.size ∧ (c.offer targets item).2 = item.ofCount? left ∧
      c.Moves item targets (c.offer targets item).1 (item.size - left) ∧
      ∀ t ∈ (c.offer targets item).1, t.after.size ≤ ItemStack.maxCount := by
  have topped := takes_of_topUpRoom? item all
  have filled := takes_of_emptyRoom? c item
  have positive := proper.positive
  have top := moves_fill item.size proper distinct topped
  have low := left_fill c item targets item.size (by omega)
    fun slot room found => (topped slot room found).positive
  generalize first : c.fill item (c.topUpRoom? item) targets item.size = tops at top low
  have fills := moves_fill tops.2 proper distinct filled
  have least := left_fill c item targets tops.2 low.1
    fun slot room found => (filled slot room found).positive
  generalize second : c.fill item c.emptyRoom? targets tops.2 = ends at fills least
  have offered : c.offer targets item = (tops.1 ++ ends.1, item.ofCount? ends.2) := by
    simp only [offer, first, second]
  have disjoint : ∀ t ∈ tops.1, ∀ u ∈ ends.1, t.slot ≠ u.slot := by
    intro t ht u hu same
    rw [← first] at ht
    rw [← second] at hu
    obtain ⟨⟨room, holds⟩, -⟩ := room_of_mem_fill topped ht
    obtain ⟨⟨space, empty⟩, -⟩ := room_of_mem_fill filled hu
    rw [same] at holds
    unfold topUpRoom? at holds
    unfold emptyRoom? at empty
    split at empty
    · simp_all
    · cases empty
  refine ⟨ends.2, least.1, Int.le_trans least.2 low.2, by rw [offered], ?_, ?_⟩
  · have both := top.append fills disjoint
    rw [show item.size - tops.2 + (tops.2 - ends.2) = item.size - ends.2 by omega] at both
    rw [offered]
    exact both
  · intro t ht
    rw [offered] at ht
    obtain ht | ht := List.mem_append.mp ht
    · exact (room_of_mem_fill topped (first ▸ ht)).2
    · exact (room_of_mem_fill filled (second ▸ ht)).2

/-- A stack is spread over other slots, and its own slot keeps what is left of it. -/
theorem Moves.takeFrom {slots : List Nat} {ts : List SlotTransaction} {slot : Nat}
    (moves : c.Moves item slots ts (item.size - left)) (proper : item.Proper) (low : 0 ≤ left)
    (most : left ≤ item.size) (inside : slot < c.size) (holds : c.get slot = some item)
    (other : slot ∉ slots) :
    c.Faithful (ts ++ [⟨slot, some item, item.ofCount? left⟩]) ∧
      ∀ {p}, Kind p → VoxelServer.gain p (ts ++ [⟨slot, some item, item.ofCount? left⟩]) = 0 := by
  have small := item.size_le
  have source : c.Allows ⟨slot, some item, item.ofCount? left⟩ :=
    ⟨inside, holds.symm, Slot.proper_ofCount? proper (by omega)⟩
  constructor
  · refine moves.faithful.append (faithful_single source) fun t ht u hu same => ?_
    rw [List.mem_singleton.mp hu] at same
    have same : t.slot = slot := same
    exact other (same ▸ moves.among t ht)
  · intro p kind
    rw [gain_append, moves.gain kind, gain_cons, gain_nil,
      Slot.amount_ofCount? kind item low (by omega), Slot.amount_some]
    split <;> omega

/-! ## Out of slots -/

variable {isSource : ItemStack → Bool} {slots : List Nat} {count : Int}

/-- What draining slots does with the first of them: the stack is full, the slot is passed over, or
it gives what fits. -/
theorem drain_cases (c : Container) (isSource : ItemStack → Bool) (slot : Nat) (slots : List Nat)
    (count : Int) :
    (c.drain isSource (slot :: slots) count = ([], count)) ∨
    c.drain isSource (slot :: slots) count = c.drain isSource slots count ∨
    ∃ found, count < ItemStack.maxCount ∧ c.get slot = some found ∧ isSource found = true ∧
      c.drain isSource (slot :: slots) count =
        let taken := min found.size (ItemStack.maxCount - count)
        let (ts, total) := c.drain isSource slots (count + taken)
        (⟨slot, some found, found.ofCount? (found.size - taken)⟩ :: ts, total) := by
  by_cases full : ItemStack.maxCount ≤ count
  · exact .inl (by rw [drain, if_pos full])
  · cases held : c.get slot with
    | none => exact .inr (.inl (by rw [drain, if_neg full, held]))
    | some found =>
      by_cases source : isSource found = true
      · refine .inr (.inr ⟨found, Int.not_le.mp full, rfl, source, ?_⟩)
        rw [drain, if_neg full, held]
        exact if_pos source
      · refine .inr (.inl ?_)
        rw [drain, if_neg full, held]
        exact if_neg source

/-- Draining slots takes as many items from there as it puts on the stack. -/
theorem moves_drain (isSource : ItemStack → Bool) (count : Int) (all : c.StacksProper)
    (distinct : slots.Nodup)
    (similar : ∀ found, isSource found = true → found.isSimilar item = true) :
    c.Moves item slots (c.drain isSource slots count).1
      (count - (c.drain isSource slots count).2) := by
  induction slots generalizing count with
  | nil =>
    rw [drain, Int.sub_self]
    exact .nil
  | cons slot slots ih =>
    obtain ⟨fresh, distinct⟩ := List.nodup_cons.mp distinct
    obtain same | same | ⟨found, short, held, source, same⟩ :=
      c.drain_cases isSource slot slots count
    · rw [same, Int.sub_self]
      exact .nil
    · rw [same]
      exact (ih count distinct).skip slot
    have short : count < 64 := short
    have proper := all slot found held
    have positive := proper.positive
    have most := found.size_le
    have inside : slot < c.size := by
      by_contra outside
      rw [get_of_size_le (by omega)] at held
      cases held
    -- what comes out of this slot is lost to it
    have moved := (ih (count + min found.size (ItemStack.maxCount - count)) distinct).cons
      (t := ⟨slot, some found, found.ofCount? (found.size - min found.size (64 - count))⟩)
      (n := -min found.size (64 - count))
      ⟨inside, held.symm, Slot.proper_ofCount? proper (by omega)⟩ fresh fun kind => by
        rw [Slot.amount_ofCount? kind found (by omega) (by omega), Slot.amount_some,
          kind.similar proper.tidy (similar found source)]
        split <;> omega
    rw [show ∀ total, -min found.size (64 - count) +
      (count + min found.size (ItemStack.maxCount - count) - total) = count - total from
        fun total => by rw [ItemStack.maxCount]; omega] at moved
    rw [same]
    exact moved

theorem count_drain (isSource : ItemStack → Bool) (slots : List Nat) (count : Int)
    (all : ∀ slot, (c.get slot).Solid) (short : count ≤ ItemStack.maxCount) :
    count ≤ (c.drain isSource slots count).2 ∧
      (c.drain isSource slots count).2 ≤ ItemStack.maxCount := by
  induction slots generalizing count with
  | nil => exact ⟨Int.le_refl count, short⟩
  | cons slot slots ih =>
    obtain same | same | ⟨found, -, held, -, same⟩ := c.drain_cases isSource slot slots count
    · rw [same]
      exact ⟨Int.le_refl count, short⟩
    · rw [same]
      exact ih count short
    · have positive := all slot found held
      obtain ⟨more, most⟩ := ih (count + min found.size (ItemStack.maxCount - count)) (by omega)
      rw [same]
      exact ⟨by dsimp only; omega, most⟩

/-- Every slot that is drained holds a source, and nothing is added to it. -/
theorem source_of_mem_drain (all : c.StacksProper) {t : SlotTransaction}
    (mem : t ∈ (c.drain isSource slots count).1) :
    ∃ found, t.before = some found ∧ isSource found = true ∧ t.after.size ≤ found.size := by
  induction slots generalizing count with
  | nil => cases mem
  | cons slot slots ih =>
    obtain same | same | ⟨found, short, held, source, same⟩ :=
      c.drain_cases isSource slot slots count
    · rw [same] at mem
      cases mem
    · rw [same] at mem
      exact ih mem
    have positive := (all slot found held).positive
    have most := found.size_le
    rw [same] at mem
    obtain rfl | mem := List.mem_cons.mp mem
    · refine ⟨found, rfl, source, ?_⟩
      have taken : 0 ≤ min found.size (ItemStack.maxCount - count) ∧
          min found.size (ItemStack.maxCount - count) ≤ found.size := by
        omega
      rw [Slot.size_ofCount? found (by omega) (by omega)]
      omega
    · exact ih mem

/-- Gathering items for a stack takes as many from the slots as it puts on the stack, which does
not grow beyond 64. -/
theorem moves_gather (all : c.StacksProper) (short : item.size ≤ ItemStack.maxCount) :
    item.size ≤ (c.gather item).2 ∧ (c.gather item).2 ≤ ItemStack.maxCount ∧
      c.Moves item c.indices (c.gather item).1 (item.size - (c.gather item).2) ∧
      ∀ t ∈ (c.gather item).1, t.after.size ≤ t.before.size := by
  let isPartial (found : ItemStack) : Bool := found.size < ItemStack.maxCount
  let fromPartial (found : ItemStack) : Bool := found.isSimilar item && isPartial found
  let fromWhole (found : ItemStack) : Bool := found.isSimilar item && !isPartial found
  have distinct : c.indices.Nodup := List.nodup_range
  have part := moves_drain fromPartial item.size all distinct
    fun found source => (Bool.and_eq_true_iff.mp source).1
  have solid : ∀ slot, (c.get slot).Solid := fun slot => (all slot).solid
  have grown := count_drain fromPartial c.indices item.size solid short
  generalize first : c.drain fromPartial c.indices item.size = partials at part grown
  have whole := moves_drain fromWhole partials.2 all distinct
    fun found source => (Bool.and_eq_true_iff.mp source).1
  have full := count_drain fromWhole c.indices partials.2 solid grown.2
  generalize second : c.drain fromWhole c.indices partials.2 = wholes at whole full
  have gathered : c.gather item = (partials.1 ++ wholes.1, wholes.2) := by
    rw [← second, ← first]
    rfl
  have disjoint : ∀ t ∈ partials.1, ∀ u ∈ wholes.1, t.slot ≠ u.slot := by
    intro t ht u hu same
    have one : t.before = u.before := by
      rw [(part.faithful.allowed t ht).before, (whole.faithful.allowed u hu).before, same]
    obtain ⟨found, held, source, -⟩ := source_of_mem_drain all (first ▸ ht)
    obtain ⟨other, holds, differs, -⟩ := source_of_mem_drain all (second ▸ hu)
    rw [held, holds] at one
    cases one
    have isPart := (Bool.and_eq_true_iff.mp source).2
    have isWhole := (Bool.and_eq_true_iff.mp differs).2
    rw [isPart] at isWhole
    cases isWhole
  rw [gathered]
  refine ⟨Int.le_trans grown.1 full.1, full.2, ?_, ?_⟩
  · have both := part.append whole disjoint
    rw [show item.size - partials.2 + (partials.2 - wholes.2) = item.size - wholes.2 by omega]
      at both
    exact both
  · have shrinks {found : ItemStack} {t : SlotTransaction} (held : t.before = some found)
        (less : t.after.size ≤ found.size) : t.after.size ≤ t.before.size := by rwa [held]
    intro t ht
    obtain ht | ht := List.mem_append.mp ht
    · obtain ⟨found, held, -, less⟩ := source_of_mem_drain all (first ▸ ht)
      exact shrinks held less
    · obtain ⟨found, held, -, less⟩ := source_of_mem_drain all (second ▸ ht)
      exact shrinks held less

end Container

end VoxelServer
