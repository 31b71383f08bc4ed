import VoxelServer.Proofs.SlotMap.Visits

/-!
# Elements keep their index

Whatever is done with a slot map, it is a finite map from indices to elements: what it holds at an
index is what was last put there and neither taken out nor rejected since.

* `SlotMap.use`, `SlotMap.useAll`: any sequence of operations, with what each of them answers;
* `SlotMap.lastHeld`: what these answers say about an index;
* `SlotMap.Holds`: all that can be asked of a map and done with it, by what it holds;
* `slot_map_keeps_elements`: every map holds what was last said about each index.
-/

namespace VoxelServer

namespace SlotMap

variable {α : Type} {m : SlotMap α} {free : List Nat} {i : Nat}

inductive Use (α : Type)
  | insert (value : α)
  | release (i : Nat)
  /-- A look at an element, which may be changed where it is. -/
  | get (i : Nat) (change : α → α)
  | retain (visit : List (Visit α) → Nat → α → Option α)

/-- What an operation answers. -/
inductive Answer (α : Type)
  | index (i : Nat)
  | element (found : Option α)
  | visits (seen : List (Visit α))

def use (m : SlotMap α) : Use α → Answer α × SlotMap α
  | .insert value =>
    let (i, m) := m.insert value
    (.index i, m)
  | .release i =>
    let (found, m) := m.release i
    (.element found, m)
  | .get i change => (.element (m.get? i), m.modify i change)
  | .retain visit =>
    let (m, visits) := (m.retain (recording visit)).run []
    (.visits visits, m)

/-- Some operations on a new map, one after the other: what is asked and answered, and the map. -/
def useAll (uses : List (Use α)) : List (Use α × Answer α) × SlotMap α :=
  uses.foldl (fun (log, m) u =>
    let (answer, m) := m.use u
    (log ++ [(u, answer)], m)) ([], empty)

/-- What is held at an index after an operation, as far as its answer tells. -/
def heldAfter (i : Nat) (held : Option α) : Use α × Answer α → Option α
  | (.insert value, .index j) => if i = j then some value else held
  | (.release j, _) => if i = j then none else held
  | (.get j change, _) => if i = j then held.map change else held
  | (.retain _, .visits seen) =>
    match seen.find? (·.index = i) with
    | some v => v.kept
    | none => held
  | _ => held

/-- What was last inserted at an index and neither released nor rejected since, as the operations
that came upon it have left it. -/
def lastHeld (log : List (Use α × Answer α)) (i : Nat) : Option α :=
  log.foldl (heldAfter i) none

/-- A map that holds `held i` at the index `i`, and all that can be done with it. -/
structure Holds (m : SlotMap α) (held : Nat → Option α) : Prop where
  get (i : Nat) : m.get? i = held i
  /-- The links lead through every free slot once, through no other slot, and end. -/
  free_slots : ∃ free, Linked m.entries m.head free ∧ free.Nodup ∧
    ∀ i, i ∈ free ↔ i < m.entries.length ∧ held i = none
  size : {i | held i ≠ none}.Finite ∧ m.size = {i | held i ≠ none}.ncard
  /-- A new element goes to an index that held none, and nothing else changes. -/
  insert (value : α) : (m.insert value).1 = m.next ∧ held m.next = none ∧
    (∀ i, (m.insert value).2.get? i = if i = m.next then some value else held i) ∧
    ∀ i, i ≠ m.next → (m.insert value).2.entries[i]? = m.entries[i]?
  /-- An element is handed out once. -/
  release (i : Nat) : (m.release i).1 = held i ∧
    (∀ j, (m.release i).2.get? j = if j = i then none else held j) ∧
    (m.release i).2.release i = (none, (m.release i).2)
  /-- Every element is visited once, in the order of the indices, and nothing but the visitor's
  word decides what becomes of it. -/
  retain (visit : List (Visit α) → Nat → α → Option α) :
    ∃ m' visits, (m.retain (recording visit)).run [] = (m', visits) ∧
      FollowedBy visit [] visits ∧ (visits.map (·.index)).Pairwise (· < ·) ∧
      (∀ i value, (i, value) ∈ visits.map (fun v => (v.index, v.value)) ↔ held i = some value) ∧
      (∀ v ∈ visits, m'.get? v.index = v.kept) ∧ ∀ i, held i = none → m'.get? i = none
  /-- The vector grows only if no slot is free. -/
  grows (u : Use α) : m.entries.length < (m.use u).2.entries.length →
    ∀ i, i < m.entries.length → held i ≠ none

theorem Threaded.use (h : m.Threaded free) (u : Use α) :
    ∃ free', (m.use u).2.Threaded free' := by
  cases u with
  | insert value => exact ⟨_, h.insert value⟩
  | release i => exact h.release i
  | get i change => exact ⟨_, h.modify i change⟩
  | retain visit =>
    obtain ⟨visits, run, -, -⟩ := m.retain_recording visit
    simp only [SlotMap.use, run]
    exact h.settleAll visits

/-- An operation says all that becomes of an element. -/
theorem Threaded.get?_use (h : m.Threaded free) (u : Use α) :
    (m.use u).2.get? i = heldAfter i (m.get? i) (u, (m.use u).1) := by
  cases u with
  | insert value =>
    obtain ⟨index, inserted⟩ := h.get?_insert (j := i) value
    exact inserted.trans (by rw [← index]; rfl)
  | release j => exact get?_release.2
  | get j change =>
    refine (get?_modify change).trans ?_
    simp only [heldAfter]
    split
    · rename_i same
      rw [same]
    · rfl
  | retain visit =>
    obtain ⟨visits, run, visited, -⟩ := m.retain_recording visit
    obtain ⟨-, distinct, live⟩ := visits_of_contents visited
    simp only [SlotMap.use, run]
    exact get?_settleAll live distinct

theorem Threaded.grows (h : m.Threaded free) (u : Use α)
    (longer : m.entries.length < (m.use u).2.entries.length) (inside : i < m.entries.length) :
    m.get? i ≠ none := by
  cases u with
  | insert value =>
    obtain same | ⟨-, full⟩ := h.length_insert value
    · exact absurd same (Nat.ne_of_gt longer)
    · exact full i inside
  | release j => exact absurd length_release (Nat.ne_of_gt longer)
  | get j change => exact absurd (length_modify change) (Nat.ne_of_gt longer)
  | retain visit =>
    obtain ⟨visits, run, -, -⟩ := m.retain_recording visit
    simp only [SlotMap.use, run, length_settleAll, Nat.lt_irrefl] at longer

theorem Threaded.holds (h : m.Threaded free) : m.Holds m.get? where
  get _ := rfl
  free_slots := ⟨free, h.linked, h.nodup, fun _ => h.mem_iff⟩
  size := m.size_eq_ncard
  insert value := ⟨(h.get?_insert (j := 0) value).1, h.get?_next,
    fun _ => (h.get?_insert value).2, fun _ other => h.entries_insert value other⟩
  release i := by
    have vacant : (m.release i).2.get? i = none := get?_release.2.trans (if_pos rfl)
    exact ⟨(get?_release (j := i)).1, fun _ => get?_release.2, release_of_vacant vacant⟩
  retain visit := by
    obtain ⟨visits, run, visited, followed⟩ := m.retain_recording visit
    obtain ⟨sorted, distinct, live⟩ := visits_of_contents visited
    exact ⟨_, visits, run, followed, sorted, fun i value => by rw [visited, mem_contents],
      fun v mem => get?_settleAll_of_mem live distinct mem,
      fun i vacant => get?_settleAll_of_vacant live distinct vacant⟩
  grows u longer _ inside := h.grows u longer inside

theorem useAll_append (uses : List (Use α)) (u : Use α) :
    useAll (uses ++ [u]) =
      ((useAll uses).1 ++ [(u, ((useAll uses).2.use u).1)], ((useAll uses).2.use u).2) := by
  simp [useAll]

/-- The links are in order after any operations, and the answers tell what is held. -/
theorem useAll_threaded (uses : List (Use α)) :
    (∃ free, (useAll uses).2.Threaded free) ∧
      (useAll uses).2.get? = lastHeld (useAll uses).1 := by
  induction uses using List.reverseRecOn with
  | nil => exact ⟨⟨[], .empty⟩, rfl⟩
  | append_singleton uses u ih =>
    obtain ⟨⟨free, threaded⟩, held⟩ := ih
    rw [useAll_append]
    refine ⟨threaded.use u, funext fun i => ?_⟩
    rw [threaded.get?_use u, held, lastHeld, lastHeld, List.foldl_append]
    rfl

end SlotMap

/-- **A slot map is a finite map with stable keys.** After any operations, the links lead through
every free slot once and through nothing else; an element is found at the index where it was
inserted until it is released or rejected; and every further operation does what it should to this
element alone. -/
theorem slot_map_keeps_elements {α : Type} (uses : List (SlotMap.Use α)) :
    (SlotMap.useAll uses).2.Holds (SlotMap.lastHeld (SlotMap.useAll uses).1) := by
  obtain ⟨⟨free, threaded⟩, held⟩ := SlotMap.useAll_threaded uses
  rw [← held]
  exact threaded.holds

-- Two slots are freed, and the latest is reused first.
example : ((SlotMap.useAll [.insert 5, .insert 6, .insert 7, .release 0, .release 2,
    .insert 8]).2.get? 2, (SlotMap.useAll [.insert 5, .release 0, .release 0]).1.map (·.2)) =
      (some 8, [.index 0, .element (some 5), .element none]) := rfl

end VoxelServer
