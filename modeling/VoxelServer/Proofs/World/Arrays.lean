import VoxelServer.Proofs.World.Writes
import VoxelServer.World.Block

/-!
# What arrays hold

An array keeps one cell for every position of its box, in the order of a walk through it. The
place of a position is computed without looking at the cells, so that it has to stay below their
number:

* `ArrayVolume.Made`: the arrays as they are made, blank or as copies;
* `Volume.Stores`: an array that holds given cells, and what access to it does;
* `BoxLaws`: how boxes, walks, places and arrays go together;
* `boxes_are_walked_and_stored`: they do, in space and on the map.
-/

namespace VoxelServer

variable {P T : Type} [Coord P] [Inhabited T]

namespace ArrayVolume

/-- Arrays as they are made, with what they hold at first. -/
inductive Made : ArrayVolume P T → (P → T) → Prop
  | blank {low high : P} {a : ArrayVolume P T} : ArrayVolume.new? low high = .ok a →
      Made a fun _ => default
  /-- A copy has blank cells where the volume cannot be read. -/
  | copy (v : Volume P T) : Coord.within v.low v.low v.high = true →
      Made v.copy fun p => (v.get p).toOption.getD default

theorem Made.full [LawfulCoord P] {a : ArrayVolume P T} {first : P → T} (made : a.Made first) :
    a.Full := by
  cases made with
  | blank new => exact (full_of_new? new).1
  | copy v box => exact full_copy box

theorem new?_eq (low high : P) :
    (ArrayVolume.new? low high : Except _ (ArrayVolume P T)) =
      if Coord.within low low high then
        .ok ⟨low, high, Array.replicate (Coord.count low high) default⟩
      else .error ⟨low, low, high⟩ := by
  unfold ArrayVolume.new? check
  split <;> rfl

/-- An array holds at first what it was made of, in the order of a walk. -/
theorem Made.cell_eq [WalkedCoord P] {a : ArrayVolume P T} {first : P → T} (made : a.Made first)
    {p : P} (inside : Coord.within p a.low a.high = true) : a.cell p = first p := by
  cases made with
  | blank new =>
    rw [new?_eq] at new
    split at new
    · cases new
      simp only [cell, Array.getD_eq_getD_getElem?, Array.getElem?_replicate]
      split <;> rfl
    · cases new
  | copy v box =>
    have here := getElem?_index inside
    simp only [cell, Volume.copy, Volume.positions, Array.getD_eq_getD_getElem?,
      List.getElem?_toArray, List.getElem?_map] at here ⊢
    rw [here]
    rfl

end ArrayVolume

namespace Volume

/-- An array with a cell for every position of a box, and what access to it does. -/
structure Stores (v : Volume P T) (low high : P) (held : P → T) : Prop where
  cells : ∃ cells, v = array ⟨low, high, cells⟩ ∧ cells.size = Coord.count low high ∧
    ∀ {p : P}, Coord.within p low high = true →
      ∃ bound : Coord.index low high p < cells.size, cells[Coord.index low high p] = held p
  get_inside {p : P} : Coord.within p low high = true → v.get p = .ok (held p)
  get_outside {p : P} : ¬ Coord.within p low high = true → v.get p = .error ⟨p, low, high⟩
  set_inside {p : P} (c : T) : Coord.within p low high = true → v.set p c = .ok (v.written p c)
  /-- A write outside of the box fails and changes nothing. -/
  set_outside {p : P} (c : T) : ¬ Coord.within p low high = true →
    v.set p c = .error (.outOfBounds ⟨p, low, high⟩) ∧ v.written p c = v

theorem stores_array [LawfulCoord P] {a : ArrayVolume P T} (full : a.Full) {held : P → T}
    (holds : ∀ {p : P}, Coord.within p a.low a.high = true → a.cell p = held p) :
    (array a).Stores a.low a.high held := by
  have shown := shows_array full.box
  refine ⟨⟨a.cells, rfl, full.size, fun {p} inside => ?_⟩, fun {p} inside => ?_,
    fun outside => shown.get_outside outside, fun c inside => ?_, fun {p} c outside => ?_⟩
  · have bound : Coord.index a.low a.high p < a.cells.size :=
      full.size ▸ LawfulCoord.index_lt inside
    refine ⟨bound, ?_⟩
    rw [← holds inside, ArrayVolume.cell, Array.getD_eq_getD_getElem?,
      Array.getElem?_eq_getElem bound]
    rfl
  · rw [shown.get_inside inside, invert_identity, holds inside]
  · rw [shown.set_inside rfl inside, shown.written_inside rfl inside]
  · exact ⟨shown.set_outside rfl outside c, shown.written_outside rfl outside c⟩

/-- After any run of writes an array still has its box, and holds what was last written. -/
theorem stores_setAll [WalkedCoord P] {a : ArrayVolume P T} {first : P → T}
    (made : a.Made first) (writes : List (P × T)) :
    ((array a).setAll writes).Stores a.low a.high
      fun p => (writes.reverse.lookup p).getD (first p) := by
  have shown := shows_array made.full.box
  obtain ⟨b, still⟩ : ∃ b, (array a).setAll writes = array b := by
    obtain ⟨f, -, changed⟩ := (array a).setAll_eq_mapStorage writes
    exact ⟨f a, changed⟩
  have kept := shown.setAll made.full writes
  have read {p : P} := shown.get_setAll (p := p) made.full rfl writes
  rw [still] at kept read ⊢
  have low : b.low = a.low := kept.low
  have high : b.high = a.high := kept.high
  have full : b.Full := kept.full
  rw [← low, ← high]
  refine stores_array full fun {p} inside => ?_
  have stored := (shows_array full.box).get_inside inside
  rw [low, high] at inside
  rw [read inside, invert_identity, made.cell_eq inside] at stored
  exact (Except.ok.inj stored).symm

end Volume

/-- How boxes, walks through them and arrays go together, if `ordered` says of two corners that no
axis of the first is above the second. -/
structure BoxLaws (P T : Type) [Coord P] [Inhabited T] (ordered : P → P → Prop) : Prop where
  in_order {low high : P} : ordered low high → Coord.InOrder low high
  new_ordered {low high : P} : ordered low high →
    ∃ a : ArrayVolume P T, ArrayVolume.new? low high = .ok a ∧ a.low = low ∧ a.high = high
  /-- Nothing is visited or made if the corners are the wrong way round. -/
  inverted {low high : P} : ¬ ordered low high →
    (Cells.new low high).Yields [] ∧
      (ArrayVolume.new? low high : Except _ (ArrayVolume P T)) = .error ⟨low, low, high⟩
  copy_ordered (v : Volume P T) : ordered v.low v.high →
    v.copy.Made (fun p => (v.get p).toOption.getD default) ∧ v.copy.low = v.low ∧
      v.copy.high = v.high
  stored {a : ArrayVolume P T} {first : P → T} (writes : List (P × T)) : a.Made first →
    ((Volume.array a).setAll writes).Stores a.low a.high
      fun p => (writes.reverse.lookup p).getD (first p)

theorem boxLaws [WalkedCoord P] {ordered : P → P → Prop}
    (same : ∀ low high, ordered low high ↔ Coord.within low low high = true) :
    BoxLaws P T ordered where
  in_order _ := inOrder _ _
  new_ordered {low high} h := by
    rw [ArrayVolume.new?_eq, if_pos ((same low high).mp h)]
    exact ⟨_, rfl, rfl, rfl⟩
  inverted {low high} h := by
    rw [same] at h
    rw [ArrayVolume.new?_eq, if_neg h]
    exact ⟨.done (by simp [Cells.new, Cells.advance?, h]), rfl⟩
  copy_ordered v h := ⟨.copy v ((same _ _).mp h), rfl, rfl⟩
  stored writes made := Volume.stores_setAll made writes

/-- **Cell enumeration, places and storage agree, in space and on the map alike.** A walk through a
box visits each of its positions once, the one at place `k` as number `k`, and stops when the cells
are used up. So an array made for a box keeps a cell for each of its positions, finds it within its
bounds, and gives back what was last written there; a write outside of the box fails and changes
nothing. -/
theorem boxes_are_walked_and_stored :
    BoxLaws (Vec3 Int) T (fun low high =>
      low.x ≤ high.x ∧ low.y ≤ high.y ∧ low.z ≤ high.z) ∧
    BoxLaws (Vec2 Int) T fun low high => low.x ≤ high.x ∧ low.z ≤ high.z :=
  ⟨boxLaws fun low high => by rw [Vec3.within_iff]; omega,
    boxLaws fun low high => by rw [Vec2.within_iff]; omega⟩

/-- Of two writes to an area of four cells, one outside of it, the other is read back. -/
theorem desert_is_read_back :
    ∃ a : ArrayVolume (Vec2 Int) BiomeType, ArrayVolume.new? ⟨-1, 0⟩ ⟨0, 1⟩ = .ok a ∧
      ((Volume.array a).setAll [(⟨0, 1⟩, .desert), (⟨5, 5⟩, .plains)]).get ⟨0, 1⟩ =
        .ok .desert := by
  have new : ArrayVolume.new? (⟨-1, 0⟩ : Vec2 Int) ⟨0, 1⟩ =
      .ok ⟨⟨-1, 0⟩, ⟨0, 1⟩, Array.replicate 4 (default : BiomeType)⟩ := rfl
  have stores := boxes_are_walked_and_stored.2.stored
    [(⟨0, 1⟩, .desert), (⟨5, 5⟩, .plains)] (.blank new)
  exact ⟨_, new, stores.get_inside (by decide)⟩

end VoxelServer
