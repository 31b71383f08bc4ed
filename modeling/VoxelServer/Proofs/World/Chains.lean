import VoxelServer.Proofs.World.Walks
import VoxelServer.Proofs.World.Views

/-!
# Volumes that can be made

Volumes begin as arrays, which may be frozen later, and views are made of them by operations that
check their boxes. So no box of a volume is turned inside out, and every position in it can be read:

* `Volume.Chain`: the volumes that can be made;
* `Volume.Chain.exists_shows`: each of them shows its storage through one rigid map;
* `Volume.cellAt`, `Volume.Chain.get_eq`: a volume as a function from the positions of its box.
-/

namespace VoxelServer

variable {P T : Type} [Coord P]

namespace Volume

/-- Arrays, frozen or not, and all views that can be made of such volumes. -/
inductive Chain : Volume P T → Prop
  | array {a : ArrayVolume P T} : a.Full → Chain (array a)
  | frozen {a : ArrayVolume P T} : a.Full → Chain (frozen a)
  | readOnly {v : Volume P T} : Chain v → Chain (readOnly v)
  | nestView {v w : Volume P T} {low high : P} : Chain v → v.nestView low high = .ok w → Chain w
  | view {v w : Volume P T} {low high : P} : Chain v → v.view low high = .ok w → Chain w
  | nestTransform {v : Volume P T} (t : Coord.Transform P) : Chain v → Chain (v.nestTransform t)
  | transform {v : Volume P T} (t : Coord.Transform P) : Chain v → Chain (v.transform t)

/-- The cell at a position, or a blank one if it cannot be read. -/
def cellAt [Inhabited T] (v : Volume P T) (p : P) : T := (v.get p).toOption.getD default

variable {v w : Volume P T} [LawfulCoord P]

theorem Chain.exists_shows (chain : v.Chain) :
    v.storage.Full ∧ ∃ t, v.Shows v.storage t := by
  suffices shown : ∃ base : ArrayVolume P T, base.Full ∧ ∃ t, v.Shows base t by
    obtain ⟨base, full, t, shown⟩ := shown
    rw [shown.storage]
    exact ⟨full, t, shown⟩
  induction chain with
  | @array a full => exact ⟨a, full, _, shows_array full.box⟩
  | @frozen a full =>
    have shown := shows_array full.box
    exact ⟨a, full, _, rfl, shown.box, shown.inside, shown.outside⟩
  | readOnly _ ih =>
    obtain ⟨base, full, t, h⟩ := ih
    exact ⟨base, full, t, h.readOnly⟩
  | nestView _ made ih =>
    obtain ⟨base, full, t, h⟩ := ih
    exact ⟨base, full, t, h.nestView made⟩
  | view _ made ih =>
    obtain ⟨base, full, t, h⟩ := ih
    exact ⟨base, full, t, h.view made⟩
  | nestTransform s _ ih =>
    obtain ⟨base, full, t, h⟩ := ih
    exact ⟨base, full, _, h.nestTransform s⟩
  | transform s _ ih =>
    obtain ⟨base, full, t, h⟩ := ih
    exact ⟨base, full, _, h.transform s⟩

theorem Chain.box (chain : v.Chain) : Coord.within v.low v.low v.high = true := by
  obtain ⟨-, t, shown⟩ := chain.exists_shows
  exact shown.box

theorem Chain.get_eq [Inhabited T] (chain : v.Chain) {p : P}
    (inside : Coord.within p v.low v.high = true) : v.get p = .ok (v.cellAt p) := by
  obtain ⟨-, t, shown⟩ := chain.exists_shows
  rw [cellAt, shown.get_inside inside]
  rfl

end Volume

end VoxelServer
