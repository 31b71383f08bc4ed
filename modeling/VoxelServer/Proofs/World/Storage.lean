import VoxelServer.Proofs.World.Rigid
import VoxelServer.World.Volume

/-!
# Storage

Arrays are made with a cell for every position of their box, blank or as copies.

* `ArrayVolume.Full`: an array as it is made;
* `ArrayVolume.full_of_new?`, `ArrayVolume.full_copy`: new arrays and copies are of this kind;
* `ArrayVolume.cell_withCell`: a write changes one cell.
-/

namespace VoxelServer

variable {P T : Type} [Coord P]

namespace ArrayVolume

/-- A box that is not empty, with a cell for each of its positions. -/
structure Full (a : ArrayVolume P T) : Prop where
  box : Coord.within a.low a.low a.high = true
  size : a.cells.size = Coord.count a.low a.high

theorem full_of_new? [Inhabited T] {low high : P} {a : ArrayVolume P T}
    (made : ArrayVolume.new? low high = .ok a) : a.Full ∧ a.low = low ∧ a.high = high := by
  unfold ArrayVolume.new? check at made
  split at made
  · rename_i box
    cases made
    exact ⟨⟨box, Array.size_replicate⟩, rfl, rfl⟩
  · cases made

theorem full_copy [LawfulCoord P] [Inhabited T] {v : Volume P T}
    (box : Coord.within v.low v.low v.high = true) : v.copy.Full where
  box := box
  size := by
    rw [Volume.copy, List.size_toArray, List.length_map]
    exact LawfulCoord.length_positions v.low v.high

/-- A write changes the cell at its position, and no other cell of the box. -/
theorem cell_withCell [LawfulCoord P] [Inhabited T] {a : ArrayVolume P T} (full : a.Full) {p q : P}
    (hp : Coord.within p a.low a.high = true) (hq : Coord.within q a.low a.high = true) (c : T) :
    (a.withCell p c).cell q = if q = p then c else a.cell q := by
  have bound := LawfulCoord.index_lt hp
  rw [← full.size] at bound
  simp only [cell, withCell, Array.getD_eq_getD_getElem?, Array.getElem?_setIfInBounds, bound]
  split
  · rename_i same
    rw [if_pos (LawfulCoord.index_inj hq hp same.symm)]
    rfl
  · rename_i differs
    rw [if_neg fun (same : q = p) => differs (same ▸ rfl)]

end ArrayVolume

end VoxelServer
