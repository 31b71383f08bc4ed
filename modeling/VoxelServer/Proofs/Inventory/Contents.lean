import VoxelServer.Inventory.Reply
import VoxelServer.Proofs.Inventory.Windows

/-!
# What all slots have in common

Whatever happens to an inventory, what lies in a slot afterwards lay in one before or was stored
there, or the slot is empty. So what is true of every slot stays true of every slot if it is true
of empty slots and of what is stored:

* `Container.Each`, `Inventory.Each`: a property of every slot;
* `Container.Each.store` and the lemmas beside it: what happens to a container keeps it;
* `Inventory.Each.finish`, `Inventory.Each.openWindow`, `Inventory.Each.closeWindow`: what happens
  to an inventory keeps it.
-/

namespace VoxelServer

variable {P : Slot → Prop}

namespace Container

variable {c p w : Container}

/-- Every slot has a property. -/
def Each (P : Slot → Prop) (c : Container) : Prop := ∀ held ∈ c.slots, P held

theorem Each.get (all : c.Each P) (empty : P none) (slot : Nat) : P (c.get slot) := by
  unfold Container.get
  cases found : c.slots[slot]? with
  | none => exact empty
  | some held => exact all held (List.mem_of_getElem? found)

theorem each_player (empty : P none) : Container.player.Each P := by
  intro held mem
  rw [(List.mem_replicate.mp mem).2]
  exact empty

theorem Each.store (all : c.Each P) {ts : List SlotTransaction}
    (stored : ∀ t ∈ ts, P t.after.nonempty) : (c.store ts).1.Each P := by
  induction ts generalizing c with
  | nil => exact all
  | cons t ts ih =>
    obtain ⟨first, rest⟩ := List.forall_mem_cons.mp stored
    unfold Container.store
    split
    · exact ih all rest
    · rename_i d set
      unfold set? at set
      split at set
      · cases set
        refine ih (fun held mem => ?_) rest
        obtain mem | rfl := List.mem_or_eq_of_mem_set mem
        · exact all held mem
        · exact first
      · cases set

theorem Each.overPlayer (all : c.Each P) (empty : P none) (windowId : UInt8) (size : Nat) :
    (c.overPlayer windowId size).Each P := by
  intro held mem
  obtain mem | mem := List.mem_append.mp mem
  · rw [(List.mem_replicate.mp mem).2]
    exact empty
  · exact all held (List.mem_of_mem_drop (List.mem_of_mem_take mem))

theorem Each.takeBack (player : p.Each P) (window : w.Each P) : (p.takeBack w).Each P := by
  intro held mem
  obtain mem | mem := List.mem_append.mp mem
  · obtain mem | mem := List.mem_append.mp mem
    · exact player held (List.mem_of_mem_take mem)
    · exact window held (List.mem_of_mem_drop mem)
  · exact player held (List.mem_of_mem_drop mem)

end Container

namespace Inventory

variable {v w : Inventory}

/-- Every slot of the player has a property, and every slot of the window. -/
structure Each (P : Slot → Prop) (v : Inventory) : Prop where
  player : v.player.Each P
  window : ∀ window ∈ v.window, window.Each P

namespace Each

theorem congr (all : v.Each P) (player : w.player = v.player) (window : w.window = v.window) :
    w.Each P :=
  ⟨player ▸ all.player, window ▸ all.window⟩

theorem current (all : v.Each P) : v.current.Each P := by
  unfold Inventory.current
  cases window : v.window with
  | none => exact all.player
  | some shown => exact all.window shown window

theorem withCurrent (all : v.Each P) {c : Container} (current : c.Each P) :
    (v.withCurrent c).Each P := by
  unfold Inventory.withCurrent
  split
  · refine ⟨all.player, fun shown same => ?_⟩
    obtain rfl := Option.mem_some_iff.mp same
    exact current
  · exact ⟨current, all.window⟩

theorem uncovered (all : v.Each P) : v.uncovered.Each P := by
  unfold Inventory.uncovered
  split
  · rename_i shown window
    exact all.player.takeBack (all.window shown window)
  · exact all.player

theorem finish (all : v.Each P) (e : ClickEvent) (action : Int16)
    (stored : ∀ t ∈ e.slots, P t.after.nonempty) : (v.finish e action).1.Each P := by
  unfold Inventory.finish
  dsimp only
  split
  · exact all
  · exact (all.withCurrent (all.current.store stored)).congr rfl rfl

theorem openWindow (all : v.Each P) (empty : P none) (windowId : UInt8) (size : Nat) :
    (v.openWindow windowId size).Each P := by
  refine ⟨all.uncovered, fun shown same => ?_⟩
  obtain rfl := Option.mem_some_iff.mp same
  exact all.uncovered.overPlayer empty windowId size

theorem closeWindow (all : v.Each P) (windowId : UInt8) : (v.closeWindow windowId).2.Each P := by
  unfold Inventory.closeWindow
  split
  · exact ⟨all.uncovered, by simp⟩
  · exact all

end Each

end Inventory

end VoxelServer
