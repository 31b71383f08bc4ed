import Mathlib.Data.List.Basic
import VoxelServer.SlotMap

/-!
# Free slots

The free slots of a slot map hang together by the links in them, and nothing else says which slots
are free. An insertion takes the first of them off, a release puts one in front:

* `SlotMap.Linked`: the slots that are found by following the links;
* `SlotMap.Threaded`: a map in which these are the free slots, each found once;
* `SlotMap.Threaded.insert_cases`, `SlotMap.release_cases`, `SlotMap.modify_cases`: all that the
  operations on one slot do.
-/

namespace VoxelServer

namespace SlotMap

variable {α : Type} {m : SlotMap α} {entries entries' : List (Entry α)} {head : Option Nat}
  {free : List Nat} {i j : Nat} {value : α}

/-- Following the links from `head` leads through these slots, all of them free, and ends. -/
inductive Linked (entries : List (Entry α)) : (head : Option Nat) → List Nat → Prop
  | done : Linked entries none []
  | free {i : Nat} {next : Option Nat} {rest : List Nat} :
      entries[i]? = some (.free next) → Linked entries next rest →
        Linked entries (some i) (i :: rest)

/-- The links of a map lead through every free slot once. -/
structure Threaded (m : SlotMap α) (free : List Nat) : Prop where
  linked : Linked m.entries m.head free
  nodup : free.Nodup
  complete {i : Nat} {next : Option Nat} : m.entries[i]? = some (.free next) → i ∈ free

theorem Linked.free_of_mem (h : Linked entries head free) (mem : i ∈ free) :
    ∃ next, entries[i]? = some (.free next) := by
  induction h with
  | done => cases mem
  | free here _ ih =>
    obtain rfl | later := List.mem_cons.mp mem
    · exact ⟨_, here⟩
    · exact ih later

/-- Only the slots on the way matter. -/
theorem Linked.congr (h : Linked entries head free)
    (same : ∀ i ∈ free, entries'[i]? = entries[i]?) : Linked entries' head free := by
  induction h with
  | done => exact .done
  | free here _ ih =>
    exact .free ((same _ List.mem_cons_self).trans here)
      (ih fun i mem => same i (List.mem_cons_of_mem _ mem))

/-! ## Entries -/

theorem get?_eq_some_iff : m.get? i = some value ↔ m.entries[i]? = some (.live value) := by
  unfold get?
  cases m.entries[i]? with
  | none => simp
  | some entry => cases entry <;> simp [Entry.value?]

/-- A slot that is there and holds nothing is free. -/
theorem free_iff : (∃ next, m.entries[i]? = some (.free next)) ↔
    i < m.entries.length ∧ m.get? i = none := by
  unfold get?
  by_cases inside : i < m.entries.length
  · rw [List.getElem?_eq_getElem inside]
    cases m.entries[i] <;> simp [Entry.value?, inside]
  · simp [inside]

theorem get?_set {entry : Entry α} (inside : i < m.entries.length) :
    (⟨head, m.entries.set i entry⟩ : SlotMap α).get? j =
      if j = i then entry.value? else m.get? j := by
  unfold get?
  by_cases same : j = i
  · subst same
    simp [inside]
  · rw [List.getElem?_set_ne (Ne.symm same), if_neg same]

theorem get?_append {entry : Entry α} :
    (⟨head, m.entries ++ [entry]⟩ : SlotMap α).get? j =
      if j = m.entries.length then entry.value? else m.get? j := by
  unfold get?
  by_cases same : j = m.entries.length
  · subst same
    simp
  · rw [if_neg same, List.getElem?_append]
    split
    · rfl
    · rw [List.getElem?_eq_none (l := m.entries) (by omega),
        List.getElem?_eq_none (by rw [List.length_singleton]; omega)]

/-! ## What an operation on one slot does -/

theorem release_cases (m : SlotMap α) (i : Nat) :
    (∃ value, m.entries[i]? = some (.live value) ∧
      m.release i = (some value, ⟨some i, m.entries.set i (.free m.head)⟩)) ∨
    m.get? i = none ∧ m.release i = (none, m) := by
  unfold release get?
  cases m.entries[i]? with
  | none => exact .inr ⟨rfl, rfl⟩
  | some entry =>
    cases entry with
    | live value => exact .inl ⟨value, rfl, rfl⟩
    | free next => exact .inr ⟨rfl, rfl⟩

theorem modify_cases (m : SlotMap α) (i : Nat) (change : α → α) :
    (∃ value, m.entries[i]? = some (.live value) ∧
      m.modify i change = ⟨m.head, m.entries.set i (.live (change value))⟩) ∨
    m.get? i = none ∧ m.modify i change = m := by
  unfold modify get?
  cases m.entries[i]? with
  | none => exact .inr ⟨rfl, rfl⟩
  | some entry =>
    cases entry with
    | live value => exact .inl ⟨value, rfl, rfl⟩
    | free next => exact .inr ⟨rfl, rfl⟩

theorem get?_release : (m.release i).1 = m.get? i ∧
    (m.release i).2.get? j = if j = i then none else m.get? j := by
  obtain ⟨value, live, released⟩ | ⟨vacant, released⟩ := m.release_cases i <;> rw [released]
  · exact ⟨(get?_eq_some_iff.mpr live).symm, get?_set (List.getElem?_eq_some_iff.mp live).1⟩
  · refine ⟨vacant.symm, ?_⟩
    split
    · rename_i same
      rw [same, vacant]
    · rfl

theorem release_of_vacant (vacant : m.get? i = none) : m.release i = (none, m) := by
  obtain ⟨value, live, -⟩ | ⟨-, released⟩ := m.release_cases i
  · rw [get?_eq_some_iff.mpr live] at vacant
    cases vacant
  · exact released

theorem get?_modify (change : α → α) :
    (m.modify i change).get? j = if j = i then (m.get? i).map change else m.get? j := by
  obtain ⟨value, live, modified⟩ | ⟨vacant, modified⟩ := m.modify_cases i change <;> rw [modified]
  · rw [get?_set (List.getElem?_eq_some_iff.mp live).1, get?_eq_some_iff.mpr live]
    rfl
  · split
    · rename_i same
      rw [same, vacant]
      rfl
    · rfl

theorem length_release : (m.release i).2.entries.length = m.entries.length := by
  obtain ⟨_, _, released⟩ | ⟨_, released⟩ := m.release_cases i <;> rw [released]
  exact List.length_set

theorem length_modify (change : α → α) :
    (m.modify i change).entries.length = m.entries.length := by
  obtain ⟨_, _, modified⟩ | ⟨_, modified⟩ := m.modify_cases i change <;> rw [modified]
  exact List.length_set

namespace Threaded

theorem mem_iff (h : m.Threaded free) : i ∈ free ↔ i < m.entries.length ∧ m.get? i = none := by
  rw [← free_iff]
  exact ⟨h.linked.free_of_mem, fun ⟨_, free⟩ => h.complete free⟩

theorem ne_of_live (h : m.Threaded free) (live : m.entries[i]? = some (.live value))
    (mem : j ∈ free) : i ≠ j := by
  rintro rfl
  obtain ⟨next, free⟩ := h.linked.free_of_mem mem
  rw [live] at free
  cases free

/-- The next index is that of the first free slot, or else one behind all others. -/
theorem next_cases (h : m.Threaded free) :
    (free = [] ∧ m.head = none ∧ m.next = m.entries.length) ∨
    ∃ rest next, free = m.next :: rest ∧ m.entries[m.next]? = some (.free next) ∧
      Linked m.entries next rest := by
  obtain ⟨head, entries⟩ := m
  obtain ⟨linked, -, -⟩ := h
  cases linked with
  | done => exact .inl ⟨rfl, rfl, rfl⟩
  | @free i next rest here linked => exact .inr ⟨rest, next, rfl, here, linked⟩

theorem insert_cases (h : m.Threaded free) (value : α) :
    (free = [] ∧ m.next = m.entries.length ∧
      m.insert value = (m.next, ⟨none, m.entries ++ [.live value]⟩)) ∨
    ∃ rest next, free = m.next :: rest ∧ m.entries[m.next]? = some (.free next) ∧
      Linked m.entries next rest ∧
      m.insert value = (m.next, ⟨next, m.entries.set m.next (.live value)⟩) := by
  obtain ⟨none, ends, behind⟩ | ⟨rest, next, first, here, linked⟩ := h.next_cases
  · exact .inl ⟨none, behind, by simp [SlotMap.insert, behind, ends]⟩
  · exact .inr ⟨rest, next, first, here, linked, by simp only [SlotMap.insert, here]⟩

/-! ## Every operation keeps the links in order -/

theorem empty : (empty : SlotMap α).Threaded [] where
  linked := .done
  nodup := .nil
  complete free := by simp [SlotMap.empty] at free

/-- The slot of a new element is no longer one of the free slots, which were all there are. -/
theorem insert (h : m.Threaded free) (value : α) : (m.insert value).2.Threaded free.tail := by
  obtain ⟨rfl, -, inserted⟩ | ⟨rest, next, rfl, here, linked, inserted⟩ := h.insert_cases value <;>
    rw [inserted]
  · refine ⟨.done, .nil, fun {i next} free => ?_⟩
    rw [List.getElem?_append] at free
    split at free
    · exact h.complete free
    · rw [List.getElem?_singleton] at free
      split at free <;> cases free
  · have fresh : m.next ∉ rest := (List.nodup_cons.mp h.nodup).1
    have bound := (List.getElem?_eq_some_iff.mp here).1
    refine ⟨linked.congr fun i mem => List.getElem?_set_ne fun same : m.next = i =>
        fresh (same ▸ mem),
      (List.nodup_cons.mp h.nodup).2, fun {i next} free => ?_⟩
    by_cases same : m.next = i
    · subst same
      rw [List.getElem?_set_self bound] at free
      cases free
    · rw [List.getElem?_set_ne same] at free
      exact (List.mem_cons.mp (h.complete free)).resolve_left (Ne.symm same)

theorem release (h : m.Threaded free) (i : Nat) : ∃ free', (m.release i).2.Threaded free' := by
  obtain ⟨value, live, released⟩ | ⟨-, released⟩ := m.release_cases i <;> rw [released]
  · have bound := (List.getElem?_eq_some_iff.mp live).1
    refine ⟨i :: free, .free (List.getElem?_set_self bound)
      (h.linked.congr fun j mem => List.getElem?_set_ne (h.ne_of_live live mem)),
      List.nodup_cons.mpr ⟨fun mem => h.ne_of_live live mem rfl, h.nodup⟩, fun {j next} vacant => ?_⟩
    by_cases same : i = j
    · exact same ▸ List.mem_cons_self
    · rw [List.getElem?_set_ne same] at vacant
      exact List.mem_cons_of_mem _ (h.complete vacant)
  · exact ⟨free, h⟩

theorem modify (h : m.Threaded free) (i : Nat) (change : α → α) :
    (m.modify i change).Threaded free := by
  obtain ⟨value, live, modified⟩ | ⟨-, modified⟩ := m.modify_cases i change <;> rw [modified]
  · have bound := (List.getElem?_eq_some_iff.mp live).1
    refine ⟨h.linked.congr fun j mem => List.getElem?_set_ne (h.ne_of_live live mem), h.nodup,
      fun {j next} vacant => ?_⟩
    by_cases same : i = j
    · rw [← same, List.getElem?_set_self bound] at vacant
      cases vacant
    · rw [List.getElem?_set_ne same] at vacant
      exact h.complete vacant
  · exact h

/-! ## Insertions -/

/-- Nothing lives where the next element goes. -/
theorem get?_next (h : m.Threaded free) : m.get? m.next = none := by
  obtain ⟨-, -, behind⟩ | ⟨_, next, -, here, -⟩ := h.next_cases
  · rw [behind, get?, List.getElem?_eq_none (Nat.le_refl _)]
    rfl
  · exact (free_iff.mp ⟨next, here⟩).2

theorem get?_insert (h : m.Threaded free) (value : α) :
    (m.insert value).1 = m.next ∧
      (m.insert value).2.get? j = if j = m.next then some value else m.get? j := by
  obtain ⟨-, behind, inserted⟩ | ⟨_, next, -, here, -, inserted⟩ := h.insert_cases value <;>
    rw [inserted]
  · rw [behind]
    exact ⟨rfl, get?_append⟩
  · exact ⟨rfl, get?_set (List.getElem?_eq_some_iff.mp here).1⟩

/-- No other entry changes, not even the link of a free one. -/
theorem entries_insert (h : m.Threaded free) (value : α) (other : j ≠ m.next) :
    (m.insert value).2.entries[j]? = m.entries[j]? := by
  obtain ⟨-, behind, inserted⟩ | ⟨_, _, -, -, -, inserted⟩ := h.insert_cases value <;> rw [inserted]
  · rw [behind] at other
    rw [List.getElem?_append]
    split
    · rfl
    · rw [List.getElem?_eq_none (by rw [List.length_singleton]; omega),
        List.getElem?_eq_none (by omega)]
  · exact List.getElem?_set_ne (Ne.symm other)

/-- There are more entries afterwards only if all of them were in use. -/
theorem length_insert (h : m.Threaded free) (value : α) :
    (m.insert value).2.entries.length = m.entries.length ∨
      (m.insert value).2.entries.length = m.entries.length + 1 ∧
        ∀ i, i < m.entries.length → m.get? i ≠ none := by
  obtain ⟨rfl, -, inserted⟩ | ⟨_, _, -, -, -, inserted⟩ := h.insert_cases value <;> rw [inserted]
  · refine .inr ⟨by simp, fun i inside vacant => ?_⟩
    cases h.mem_iff.mpr ⟨inside, vacant⟩
  · exact .inl List.length_set

end Threaded

end SlotMap

end VoxelServer
