/-!
# Slot maps

A vector whose elements keep their index for as long as they live. Freed slots are reused, the
latest first: each of them names the next free one.

* `SlotMap`: the type, with `insert`, `release`, `get?`, `modify` and `retain`.
* `SlotMap.next`: the index the next insertion takes.
-/

namespace VoxelServer

inductive SlotMap.Entry (α : Type)
  | live (value : α)
  | free (next : Option Nat)
  deriving DecidableEq, Repr

structure SlotMap (α : Type) where
  /-- The first free slot, if there is one. -/
  head : Option Nat
  entries : List (SlotMap.Entry α)
  deriving DecidableEq, Repr

namespace SlotMap

variable {α : Type}

def empty : SlotMap α := ⟨none, []⟩

def Entry.value? : Entry α → Option α
  | live value => some value
  | free _ => none

def get? (m : SlotMap α) (i : Nat) : Option α := m.entries[i]? >>= Entry.value?

/-- The number of live elements. -/
def size (m : SlotMap α) : Nat := (m.entries.filterMap Entry.value?).length

def isEmpty (m : SlotMap α) : Bool := m.size == 0

def next (m : SlotMap α) : Nat := m.head.getD m.entries.length

/-- The index of the new element, and the map with it. -/
def insert (m : SlotMap α) (value : α) : Nat × SlotMap α :=
  let i := m.next
  match m.entries[i]? with
  | none => (i, { m with entries := m.entries ++ [.live value] })
  | some (.live _) => (i, { m with entries := m.entries.set i (.live value) })
  | some (.free next) => (i, ⟨next, m.entries.set i (.live value)⟩)

/-- The element at an index, if one lives there, and the map without it. -/
def release (m : SlotMap α) (i : Nat) : Option α × SlotMap α :=
  match m.entries[i]? with
  | some (.live value) => (some value, ⟨some i, m.entries.set i (.free m.head)⟩)
  | _ => (none, m)

/-- Changes the element at an index in place, if one lives there. -/
def modify (m : SlotMap α) (i : Nat) (change : α → α) : SlotMap α :=
  match m.entries[i]? with
  | some (.live value) => { m with entries := m.entries.set i (.live (change value)) }
  | _ => m

/-- Visits the live elements of entries whose first has index `i`, replaces those for which the
visitor gives a value, and frees the others. -/
def retainFrom {m : Type → Type} [Monad m] (visit : Nat → α → m (Option α)) :
    (i : Nat) → (head : Option Nat) → List (Entry α) → m (Option Nat × List (Entry α))
  | _, head, [] => return (head, [])
  | i, head, .free next :: entries => do
    let (head, entries) ← retainFrom visit (i + 1) head entries
    return (head, .free next :: entries)
  | i, head, .live value :: entries => do
    match ← visit i value with
    | some value =>
      let (head, entries) ← retainFrom visit (i + 1) head entries
      return (head, .live value :: entries)
    | none =>
      let (last, entries) ← retainFrom visit (i + 1) (some i) entries
      return (last, .free head :: entries)

/-- Visits every live element once, in the order of their indices. -/
def retain {m : Type → Type} [Monad m] (map : SlotMap α) (visit : Nat → α → m (Option α)) :
    m (SlotMap α) := do
  let (head, entries) ← retainFrom visit 0 map.head map.entries
  return ⟨head, entries⟩

end SlotMap

end VoxelServer
