import Mathlib.Data.Set.Card
import VoxelServer.Proofs.SlotMap.FreeSlots

/-!
# Visits to all elements

A pass over a slot map frees the slots of rejected elements as it goes, on the links that it has
made so far:

* `SlotMap.contents`: the elements with their indices, in order;
* `SlotMap.recording`: a visitor that may go by what it has seen before, with a record of its
  visits;
* `SlotMap.retain_recording`: such a pass visits the contents, and leaves the map that
  `SlotMap.settle` makes of them one after the other.
-/

namespace VoxelServer

namespace SlotMap

variable {α : Type} {m : SlotMap α} {free : List Nat} {i j : Nat}

/-! ## Elements in order -/

/-- The live elements of entries whose first has index `i`. -/
def liveFrom : (i : Nat) → List (Entry α) → List (Nat × α)
  | _, [] => []
  | i, .live value :: entries => (i, value) :: liveFrom (i + 1) entries
  | i, .free _ :: entries => liveFrom (i + 1) entries

def contents (m : SlotMap α) : List (Nat × α) := liveFrom 0 m.entries

theorem mem_liveFrom {entries : List (Entry α)} {value : α} :
    (j, value) ∈ liveFrom i entries ↔ ∃ k, j = i + k ∧ entries[k]? = some (.live value) := by
  induction entries generalizing i with
  | nil => simp [liveFrom]
  | cons entry entries ih =>
    rw [← Nat.or_exists_add_one]
    cases entry with
    | live found =>
      simp [liveFrom, ih, Nat.add_assoc, Nat.add_comm 1, eq_comm]
    | free next =>
      simp [liveFrom, ih, Nat.add_assoc, Nat.add_comm 1]

theorem mem_contents {value : α} : (j, value) ∈ m.contents ↔ m.get? j = some value := by
  rw [contents, mem_liveFrom, get?_eq_some_iff]
  simp

theorem liveFrom_sorted (i : Nat) (entries : List (Entry α)) :
    ((liveFrom i entries).map Prod.fst).Pairwise (· < ·) := by
  induction entries generalizing i with
  | nil => exact .nil
  | cons entry entries ih =>
    cases entry with
    | live value =>
      refine .cons (fun j mem => ?_) (ih (i + 1))
      obtain ⟨⟨_, _⟩, later, rfl⟩ := List.mem_map.mp mem
      obtain ⟨k, rfl, -⟩ := mem_liveFrom.mp later
      omega
    | free next => exact ih (i + 1)

theorem map_snd_liveFrom (i : Nat) (entries : List (Entry α)) :
    (liveFrom i entries).map Prod.snd = entries.filterMap Entry.value? := by
  induction entries generalizing i with
  | nil => rfl
  | cons entry entries ih => cases entry <;> simp [liveFrom, Entry.value?, ih, List.filterMap_cons]

/-- The size counts the indices that hold an element. -/
theorem size_eq_ncard (m : SlotMap α) :
    {i | m.get? i ≠ none}.Finite ∧ m.size = {i | m.get? i ≠ none}.ncard := by
  have indices : {i | m.get? i ≠ none} = ↑(m.contents.map Prod.fst).toFinset := by
    ext i
    simp [mem_contents, Option.ne_none_iff_exists']
  have nodup : (m.contents.map Prod.fst).Nodup := (liveFrom_sorted 0 m.entries).imp Nat.ne_of_lt
  rw [indices, Set.ncard_coe_finset, List.toFinset_card_of_nodup nodup, List.length_map, size,
    ← map_snd_liveFrom 0, List.length_map]
  exact ⟨Finset.finite_toSet _, rfl⟩

/-! ## Visits -/

/-- A visit to an element, and what the visitor wants kept of it. -/
structure Visit (α : Type) where
  index : Nat
  value : α
  kept : Option α

/-- A visitor that may go by what it has seen before, with a record of its visits. -/
def recording (visit : List (Visit α) → Nat → α → Option α) (i : Nat) (value : α) :
    StateM (List (Visit α)) (Option α) := fun seen =>
  (visit seen i value, seen ++ [⟨i, value, visit seen i value⟩])

/-- The visits are those that the visitor would make if it were asked itself. -/
def FollowedBy (visit : List (Visit α) → Nat → α → Option α) (seen : List (Visit α)) :
    List (Visit α) → Prop
  | [] => True
  | v :: visits => v.kept = visit seen v.index v.value ∧ FollowedBy visit (seen ++ [v]) visits

/-- Keeps what a visit wants kept. -/
def settle (m : SlotMap α) (v : Visit α) : SlotMap α :=
  match v.kept with
  | some value => m.modify v.index fun _ => value
  | none => (m.release v.index).2

section

variable (visit : List (Visit α) → Nat → α → Option α) (entries : List (Entry α))
  (head : Option Nat) (seen : List (Visit α))

theorem run_retainFrom_free (next : Option Nat) :
    (retainFrom (recording visit) i head (.free next :: entries)).run seen =
      let r := (retainFrom (recording visit) (i + 1) head entries).run seen
      ((r.1.1, .free next :: r.1.2), r.2) := rfl

theorem run_retainFrom_live (value : α) :
    (retainFrom (recording visit) i head (.live value :: entries)).run seen =
      match visit seen i value with
      | some value' =>
        let r := (retainFrom (recording visit) (i + 1) head entries).run
          (seen ++ [⟨i, value, some value'⟩])
        ((r.1.1, .live value' :: r.1.2), r.2)
      | none =>
        let r := (retainFrom (recording visit) (i + 1) (some i) entries).run
          (seen ++ [⟨i, value, none⟩])
        ((r.1.1, .free head :: r.1.2), r.2) := by
  have visited : (recording visit i value).run seen =
    (visit seen i value, seen ++ [⟨i, value, visit seen i value⟩]) := rfl
  rw [retainFrom, StateT.run_bind, visited]
  cases visit seen i value <;> rfl

/-- Going through the entries behind `before` keeps what the visits want kept, one after the
other. -/
theorem retainFrom_recording (before : List (Entry α)) : ∃ visits last entries',
    (retainFrom (recording visit) before.length head entries).run seen =
      ((last, entries'), seen ++ visits) ∧
    visits.map (fun v => (v.index, v.value)) = liveFrom before.length entries ∧
    FollowedBy visit seen visits ∧
    (⟨last, before ++ entries'⟩ : SlotMap α) = visits.foldl settle ⟨head, before ++ entries⟩ := by
  induction entries generalizing before head seen with
  | nil => exact ⟨[], head, [], congrArg _ (List.append_nil seen).symm, rfl, trivial, rfl⟩
  | cons entry entries ih =>
    cases entry with
    | free next =>
      obtain ⟨visits, last, entries', run, visited, followed, settled⟩ :=
        ih head seen (before ++ [.free next])
      rw [List.length_append, List.length_singleton] at run visited
      refine ⟨visits, last, .free next :: entries', ?_, visited, followed, by simpa using settled⟩
      rw [run_retainFrom_free, run]
    | live value =>
      rw [run_retainFrom_live]
      cases kept : visit seen before.length value with
      | some value' =>
        obtain ⟨visits, last, entries', run, visited, followed, settled⟩ :=
          ih head (seen ++ [⟨before.length, value, some value'⟩]) (before ++ [.live value'])
        rw [List.length_append, List.length_singleton] at run visited
        refine ⟨⟨before.length, value, some value'⟩ :: visits, last, .live value' :: entries',
          ?_, by simp [liveFrom, visited], ⟨kept.symm, followed⟩, ?_⟩
        · simp only [run, List.append_assoc, List.singleton_append]
        · simpa [settle, modify] using settled
      | none =>
        obtain ⟨visits, last, entries', run, visited, followed, settled⟩ :=
          ih (some before.length) (seen ++ [⟨before.length, value, none⟩]) (before ++ [.free head])
        rw [List.length_append, List.length_singleton] at run visited
        refine ⟨⟨before.length, value, none⟩ :: visits, last, .free head :: entries',
          ?_, by simp [liveFrom, visited], ⟨kept.symm, followed⟩, ?_⟩
        · simp only [run, List.append_assoc, List.singleton_append]
        · simpa [settle, SlotMap.release] using settled

end

/-- A visit to all elements is a visit to each, in order, with what it wants kept of this one. -/
theorem retain_recording (m : SlotMap α) (visit : List (Visit α) → Nat → α → Option α) :
    ∃ visits, (m.retain (recording visit)).run [] = (visits.foldl settle m, visits) ∧
      visits.map (fun v => (v.index, v.value)) = m.contents ∧ FollowedBy visit [] visits := by
  obtain ⟨visits, last, entries, run, visited, followed, settled⟩ :=
    retainFrom_recording visit m.entries m.head [] []
  refine ⟨visits, ?_, visited, followed⟩
  have swept : (m.retain (recording visit)).run [] =
      let r := (retainFrom (recording visit) 0 m.head m.entries).run []
      (⟨r.1.1, r.1.2⟩, r.2) := rfl
  rw [List.length_nil] at run
  rw [swept, run]
  exact congrArg (·, visits) settled

/-- Such visits are to the live elements, each at an index of its own. -/
theorem visits_of_contents {visits : List (Visit α)}
    (visited : visits.map (fun v => (v.index, v.value)) = m.contents) :
    (visits.map (·.index)).Pairwise (· < ·) ∧ (visits.map (·.index)).Nodup ∧
      ∀ v ∈ visits, m.get? v.index ≠ none := by
  have sorted := liveFrom_sorted 0 m.entries
  rw [← contents, ← visited, List.map_map] at sorted
  refine ⟨sorted, sorted.imp Nat.ne_of_lt, fun v mem => ?_⟩
  have held : (v.index, v.value) ∈ m.contents := visited ▸ List.mem_map_of_mem mem
  simp [mem_contents.mp held]

/-! ## What the visits leave -/

theorem Threaded.settle (h : m.Threaded free) (v : Visit α) :
    ∃ free', (m.settle v).Threaded free' := by
  unfold SlotMap.settle
  cases v.kept with
  | some value => exact ⟨free, h.modify v.index _⟩
  | none => exact h.release v.index

theorem Threaded.settleAll (h : m.Threaded free) (visits : List (Visit α)) :
    ∃ free', (visits.foldl SlotMap.settle m).Threaded free' := by
  induction visits generalizing m free with
  | nil => exact ⟨free, h⟩
  | cons v visits ih =>
    obtain ⟨free', h'⟩ := h.settle v
    exact ih h'

theorem length_settleAll (m : SlotMap α) (visits : List (Visit α)) :
    (visits.foldl settle m).entries.length = m.entries.length := by
  induction visits generalizing m with
  | nil => rfl
  | cons v visits ih =>
    refine (ih (m.settle v)).trans ?_
    unfold settle
    cases v.kept with
    | some value => exact length_modify _
    | none => exact length_release

theorem get?_settle (v : Visit α) (live : m.get? v.index ≠ none) :
    (m.settle v).get? j = if j = v.index then v.kept else m.get? j := by
  unfold settle
  cases v.kept with
  | some value =>
    obtain ⟨found, held⟩ := Option.ne_none_iff_exists'.mp live
    rw [get?_modify, held]
    rfl
  | none => exact get?_release.2

/-- The visit to an index decides what is there afterwards. Nothing else changes. -/
theorem get?_settleAll {visits : List (Visit α)} (live : ∀ v ∈ visits, m.get? v.index ≠ none)
    (distinct : (visits.map (·.index)).Nodup) :
    (visits.foldl settle m).get? j =
      match visits.find? (·.index = j) with
      | some v => v.kept
      | none => m.get? j := by
  induction visits generalizing m with
  | nil => rfl
  | cons v visits ih =>
    obtain ⟨fresh, distinct⟩ := List.nodup_cons.mp distinct
    have settled {i : Nat} := get?_settle (j := i) v (live v List.mem_cons_self)
    have other : ∀ w ∈ visits, w.index ≠ v.index := fun w mem same =>
      fresh (List.mem_map.mpr ⟨w, mem, same⟩)
    rw [List.foldl_cons, ih (fun w mem => ?_) distinct, settled, List.find?_cons]
    · by_cases here : v.index = j
      · have none : visits.find? (·.index = j) = none :=
          List.find?_eq_none.mpr fun w mem => by simpa [← here] using other w mem
        simp [here, none]
      · simp [here, Ne.symm here]
    · rw [settled, if_neg (other w mem)]
      exact live w (List.mem_cons_of_mem _ mem)

theorem get?_settleAll_of_mem {visits : List (Visit α)}
    (live : ∀ v ∈ visits, m.get? v.index ≠ none) (distinct : (visits.map (·.index)).Nodup)
    {v : Visit α} (mem : v ∈ visits) : (visits.foldl settle m).get? v.index = v.kept := by
  rw [get?_settleAll live distinct]
  cases found : visits.find? (·.index = v.index) with
  | some w =>
    have same : w.index = v.index := by simpa using List.find?_some found
    exact congrArg Visit.kept
      (List.inj_on_of_nodup_map distinct (List.mem_of_find?_eq_some found) mem same)
  | none => simpa using List.find?_eq_none.mp found v mem

theorem get?_settleAll_of_vacant {visits : List (Visit α)}
    (live : ∀ v ∈ visits, m.get? v.index ≠ none) (distinct : (visits.map (·.index)).Nodup)
    (vacant : m.get? i = none) : (visits.foldl settle m).get? i = none := by
  rw [get?_settleAll live distinct]
  cases found : visits.find? (·.index = i) with
  | some w =>
    have same : w.index = i := by simpa using List.find?_some found
    exact absurd (same ▸ vacant) (live w (List.mem_of_find?_eq_some found))
  | none => exact vacant

end SlotMap

end VoxelServer
