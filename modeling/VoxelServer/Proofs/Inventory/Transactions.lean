import VoxelServer.Inventory.Container
import VoxelServer.Proofs.Item.Similar

/-!
# Making transactions

A plan names the slots it changes, with what they hold now and what they are to hold. If it names
none of them twice the plan can be made as a whole:

* `Container.Faithful`: such a plan for a container;
* `Container.get_store_of_mem`, `Container.get_store_of_not_mem`: the named slots then hold what
  was planned, and the others what they held before.
-/

namespace VoxelServer.Container

/-- A transaction that tells what a slot of the container holds, and what it may hold instead. -/
structure Allows (c : Container) (t : SlotTransaction) : Prop where
  inside : t.slot < c.size
  before : t.before = c.get t.slot
  proper : t.after.Proper

/-- Transactions for different slots. -/
structure Faithful (c : Container) (ts : List SlotTransaction) : Prop where
  distinct : (ts.map (·.slot)).Nodup
  allowed : ∀ t ∈ ts, c.Allows t

variable {c : Container} {t : SlotTransaction} {ts us : List SlotTransaction}

/-! ## One slot -/

/-- The container with other content in one slot. -/
def put (c : Container) (slot : Nat) (item : Slot) : Container :=
  { c with slots := c.slots.set slot item }

@[simp] theorem windowId_put (c : Container) (slot : Nat) (item : Slot) :
    (c.put slot item).windowId = c.windowId := rfl

@[simp] theorem own_put (c : Container) (slot : Nat) (item : Slot) :
    (c.put slot item).own = c.own := rfl

@[simp] theorem size_put (c : Container) (slot : Nat) (item : Slot) :
    (c.put slot item).size = c.size := List.length_set

theorem get_put_self {slot : Nat} (inside : slot < c.size) (item : Slot) :
    (c.put slot item).get slot = item := by
  have inside : slot < c.slots.length := inside
  simp [get, put, inside]

theorem get_put_of_ne {slot other : Nat} (differ : slot ≠ other) (item : Slot) :
    (c.put slot item).get other = c.get other := by
  simp [get, put, differ]

theorem index?_eq_some {number : Int16} {slot : Nat} (found : c.index? number = some slot) :
    slot < c.size ∧ (slot : Int) = number.toInt := by
  unfold index? at found
  split at found
  · rename_i bounds
    obtain ⟨low, high⟩ := Bool.and_eq_true_iff.mp bounds
    have low := of_decide_eq_true low
    have high := of_decide_eq_true high
    cases found
    exact ⟨by omega, by omega⟩
  · cases found

theorem set?_of_allows (allowed : c.Allows t) :
    c.set? t.slot t.after = some (c.put t.slot t.after) := by
  rw [set?, if_pos allowed.inside, allowed.proper.nonempty]
  rfl

theorem get_of_size_le {slot : Nat} (outside : c.size ≤ slot) : c.get slot = none := by
  have outside : c.slots.length ≤ slot := outside
  simp [get, List.getElem?_eq_none outside]

/-! ## Plans -/

theorem faithful_nil (c : Container) : c.Faithful [] := ⟨List.nodup_nil, by simp⟩

theorem Faithful.cons (allowed : c.Allows t) (rest : c.Faithful ts)
    (fresh : ∀ u ∈ ts, t.slot ≠ u.slot) : c.Faithful (t :: ts) := by
  refine ⟨List.nodup_cons.mpr ⟨fun mem => ?_, rest.distinct⟩, ?_⟩
  · obtain ⟨u, hu, same⟩ := List.mem_map.mp mem
    exact fresh u hu same.symm
  · exact List.forall_mem_cons.mpr ⟨allowed, rest.allowed⟩

theorem faithful_single (allowed : c.Allows t) : c.Faithful [t] :=
  .cons allowed (faithful_nil c) (by simp)

theorem Faithful.append (first : c.Faithful ts) (second : c.Faithful us)
    (disjoint : ∀ t ∈ ts, ∀ u ∈ us, t.slot ≠ u.slot) : c.Faithful (ts ++ us) := by
  constructor
  · rw [List.map_append, List.nodup_append]
    refine ⟨first.distinct, second.distinct, ?_⟩
    intro i hi j hj
    obtain ⟨t, ht, rfl⟩ := List.mem_map.mp hi
    obtain ⟨u, hu, rfl⟩ := List.mem_map.mp hj
    exact disjoint t ht u hu
  · intro t ht
    exact (List.mem_append.mp ht).elim (first.allowed t) (second.allowed t)

theorem Faithful.ne_of_mem (h : c.Faithful (t :: ts)) {u : SlotTransaction} (mem : u ∈ ts) :
    t.slot ≠ u.slot :=
  (List.pairwise_cons.mp h.distinct).1 _ (List.mem_map_of_mem mem)

/-- Once one transaction is made the others still tell what their slots hold. -/
theorem Faithful.rest (h : c.Faithful (t :: ts)) : (c.put t.slot t.after).Faithful ts := by
  refine ⟨(List.nodup_cons.mp h.distinct).2, fun u hu => ?_⟩
  obtain ⟨inside, before, proper⟩ := h.allowed u (List.mem_cons_of_mem _ hu)
  exact ⟨by rwa [size_put], by rw [before, get_put_of_ne (h.ne_of_mem hu)], proper⟩

theorem store_cons (allowed : c.Allows t) (ts : List SlotTransaction) :
    (c.store (t :: ts)).1 = ((c.put t.slot t.after).store ts).1 ∧
      (c.store (t :: ts)).2 = t :: ((c.put t.slot t.after).store ts).2 := by
  rw [store, set?_of_allows allowed]
  exact ⟨rfl, rfl⟩

/-- The layout stays as it is, whatever is stored. -/
theorem layout_store (c : Container) (ts : List SlotTransaction) :
    (c.store ts).1.windowId = c.windowId ∧ (c.store ts).1.own = c.own ∧
      (c.store ts).1.size = c.size := by
  induction ts generalizing c with
  | nil => exact ⟨rfl, rfl, rfl⟩
  | cons t ts ih =>
    unfold store
    split
    · exact ih c
    · rename_i d set
      unfold set? at set
      split at set
      · cases set
        obtain ⟨windowId, own, size⟩ := ih { c with slots := c.slots.set t.slot t.after.nonempty }
        exact ⟨windowId, own, size.trans List.length_set⟩
      · cases set

theorem get_store_of_not_mem (h : c.Faithful ts) {slot : Nat}
    (other : ∀ t ∈ ts, t.slot ≠ slot) : (c.store ts).1.get slot = c.get slot := by
  induction ts generalizing c with
  | nil => rfl
  | cons t ts ih =>
    rw [(store_cons (h.allowed t List.mem_cons_self) ts).1,
      ih h.rest fun u hu => other u (List.mem_cons_of_mem _ hu),
      get_put_of_ne (other t List.mem_cons_self)]

theorem get_store_of_mem (h : c.Faithful ts) (mem : t ∈ ts) :
    (c.store ts).1.get t.slot = t.after := by
  induction ts generalizing c with
  | nil => cases mem
  | cons u ts ih =>
    rw [(store_cons (h.allowed u List.mem_cons_self) ts).1]
    obtain rfl | mem := List.mem_cons.mp mem
    · rw [get_store_of_not_mem h.rest fun u hu => (h.ne_of_mem hu).symm]
      exact get_put_self (h.allowed t List.mem_cons_self).inside _
    · exact ih h.rest mem

/-- What is stored was planned or was there before. -/
theorem forall_get_store {P : Slot → Prop} (h : c.Faithful ts) (before : ∀ slot, P (c.get slot))
    (planned : ∀ t ∈ ts, P t.after) (slot : Nat) : P ((c.store ts).1.get slot) := by
  by_cases named : ∃ t ∈ ts, t.slot = slot
  · obtain ⟨t, ht, rfl⟩ := named
    rw [get_store_of_mem h ht]
    exact planned t ht
  · rw [get_store_of_not_mem h fun t ht same => named ⟨t, ht, same⟩]
    exact before slot

end VoxelServer.Container
