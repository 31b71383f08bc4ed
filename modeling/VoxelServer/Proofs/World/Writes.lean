import Mathlib.Data.List.Induction
import VoxelServer.Proofs.World.Views
import VoxelServer.Proofs.World.Walks

/-!
# Runs of writes

Any number of writes through a chain of views, some of which may fail, changes the storage at the
end of the chain and nothing about the views:

* `Volume.written`, `Volume.setAll`: a volume after a write, and after several;
* `Volume.setAll_eq_mapStorage`: what a run of writes keeps;
* `Volume.Shows.get_setAll`, `Volume.Shows.cell_setAll`: what is read afterwards, through the views
  and in the storage.
-/

namespace VoxelServer

variable {P T : Type}

/-- A change of storage that keeps its box and the number of cells. -/
structure ArrayVolume.KeepsBox (f : ArrayVolume P T → ArrayVolume P T) : Prop where
  low (a : ArrayVolume P T) : (f a).low = a.low
  high (a : ArrayVolume P T) : (f a).high = a.high
  size (a : ArrayVolume P T) : (f a).cells.size = a.cells.size

namespace ArrayVolume.KeepsBox

variable {f g : ArrayVolume P T → ArrayVolume P T}

theorem id : KeepsBox (id : ArrayVolume P T → ArrayVolume P T) :=
  ⟨fun _ => rfl, fun _ => rfl, fun _ => rfl⟩

theorem comp (keeps' : KeepsBox g) (keeps : KeepsBox f) : KeepsBox (g ∘ f) where
  low a := (keeps'.low _).trans (keeps.low a)
  high a := (keeps'.high _).trans (keeps.high a)
  size a := (keeps'.size _).trans (keeps.size a)

theorem full [Coord P] (keeps : KeepsBox f) {a : ArrayVolume P T} (full : a.Full) : (f a).Full :=
  ⟨by rw [keeps.low, keeps.high, full.box], by rw [keeps.low, keeps.high, keeps.size, full.size]⟩

end ArrayVolume.KeepsBox

variable [Coord P]

/-- A write changes the cell behind its position, unless it may not or there is none. -/
theorem VolumeWriter.put_eq_target (v : Volume P T) (p : P) (c : T) :
    (put p c).run.run v =
      match v.target p with
      | .ok q => (.ok (), v.mapStorage (·.withCell q c))
      | .error e => (.error e, v) := rfl

namespace Volume

/-- A volume after a write. One that fails leaves it as it was. -/
def written (v : Volume P T) (p : P) (c : T) : Volume P T := ((VolumeWriter.put p c).run.run v).2

/-- A volume after some writes, one after the other. -/
def setAll (v : Volume P T) (writes : List (P × T)) : Volume P T :=
  writes.foldl (fun v w => v.written w.1 w.2) v

variable {v : Volume P T} {base : ArrayVolume P T} {t : Coord.Transform P} {p p' : P}

theorem mapStorage_mapStorage (f g : ArrayVolume P T → ArrayVolume P T) (v : Volume P T) :
    (v.mapStorage f).mapStorage g = v.mapStorage (g ∘ f) := by
  induction v with
  | array | frozen => rfl
  | readOnly _ ih | downsize _ _ _ ih | transformed _ _ _ _ ih => simp only [mapStorage, ih]

theorem mapStorage_id (v : Volume P T) : v.mapStorage id = v := by
  induction v with
  | array | frozen => rfl
  | readOnly _ ih | downsize _ _ _ ih | transformed _ _ _ _ ih => simp only [mapStorage, ih]

theorem isWritable_mapStorage (f : ArrayVolume P T → ArrayVolume P T) (v : Volume P T) :
    (v.mapStorage f).isWritable = v.isWritable := by
  induction v with
  | array | frozen | readOnly => rfl
  | downsize _ _ _ ih | transformed _ _ _ _ ih => exact ih

theorem written_eq (v : Volume P T) (p : P) (c : T) :
    v.written p c =
      match v.target p with
      | .ok q => v.mapStorage (·.withCell q c)
      | .error _ => v := by
  rw [written, VolumeWriter.put_eq_target]
  cases v.target p <;> rfl

theorem written_eq_mapStorage (v : Volume P T) (p : P) (c : T) :
    ∃ f, ArrayVolume.KeepsBox f ∧ v.written p c = v.mapStorage f := by
  rw [written_eq]
  cases v.target p with
  | error e => exact ⟨id, .id, (mapStorage_id v).symm⟩
  | ok q =>
    exact ⟨(·.withCell q c), ⟨fun _ => rfl, fun _ => rfl, fun _ => Array.size_setIfInBounds⟩, rfl⟩

/-- Writes keep all views and the box of the storage. -/
theorem setAll_eq_mapStorage (v : Volume P T) (writes : List (P × T)) :
    ∃ f, ArrayVolume.KeepsBox f ∧ v.setAll writes = v.mapStorage f := by
  induction writes generalizing v with
  | nil => exact ⟨id, .id, (mapStorage_id v).symm⟩
  | cons w writes ih =>
    obtain ⟨f, keeps, first⟩ := v.written_eq_mapStorage w.1 w.2
    obtain ⟨g, keeps', rest⟩ := ih (v.written w.1 w.2)
    refine ⟨g ∘ f, keeps'.comp keeps, ?_⟩
    rw [setAll, List.foldl_cons, ← mapStorage_mapStorage, ← first]
    exact rest

theorem setAll_append (v : Volume P T) (writes : List (P × T)) (w : P × T) :
    v.setAll (writes ++ [w]) = (v.setAll writes).written w.1 w.2 := by
  simp [setAll]

/-- What a run of writes keeps of a chain of views over an array. -/
structure Kept (v w : Volume P T) (t : Coord.Transform P) : Prop where
  low : w.low = v.low
  high : w.high = v.high
  isWritable : w.isWritable = v.isWritable
  shows_storage : w.Shows w.storage t
  full : w.storage.Full
  storage_low : w.storage.low = v.storage.low
  storage_high : w.storage.high = v.storage.high

theorem Shows.setAll (h : v.Shows base t) (full : base.Full) (writes : List (P × T)) :
    Kept v (v.setAll writes) t := by
  obtain ⟨f, keeps, changed⟩ := v.setAll_eq_mapStorage writes
  have bounds := v.bounds_mapStorage keeps.low keeps.high
  rw [changed]
  refine ⟨bounds.1, bounds.2, isWritable_mapStorage f v, ?_, ?_, ?_, ?_⟩
  all_goals rw [storage_mapStorage, h.storage]
  · exact h.mapStorage keeps.low keeps.high
  · exact keeps.full full
  · exact keeps.low base
  · exact keeps.high base

theorem Shows.written_inside (h : v.Shows base t) (writable : v.isWritable = true)
    (inside : Coord.within p v.low v.high = true) (c : T) :
    v.written p c = v.mapStorage (·.withCell (Coord.apply (Coord.invert t) p) c) := by
  rw [written, VolumeWriter.put_eq, h.set_inside writable inside]

theorem Shows.written_outside (h : v.Shows base t) (writable : v.isWritable = true)
    (outside : ¬ Coord.within p v.low v.high = true) (c : T) : v.written p c = v := by
  rw [written, VolumeWriter.put_eq, h.set_outside writable outside]

variable [LawfulCoord P] [Inhabited T]

theorem Shows.get_written (h : v.Shows base t) (full : base.Full) (writable : v.isWritable = true)
    (c : T) (inside : Coord.within p v.low v.high = true) :
    (v.written p' c).get p = if p = p' then .ok c else v.get p := by
  by_cases inside' : Coord.within p' v.low v.high = true
  · rw [h.written_inside writable inside', h.get_withCell full inside']
  · rw [h.written_outside writable inside', if_neg]
    rintro rfl
    exact inside' inside

/-- After a run of writes a position holds what was last written to it. -/
theorem Shows.get_setAll (h : v.Shows base t) (full : base.Full) (writable : v.isWritable = true)
    (writes : List (P × T)) (inside : Coord.within p v.low v.high = true) :
    (v.setAll writes).get p =
      .ok ((writes.reverse.lookup p).getD (base.cell (Coord.apply (Coord.invert t) p))) := by
  induction writes using List.reverseRecOn with
  | nil => exact h.get_inside inside
  | append_singleton writes w ih =>
    obtain ⟨low, high, still, shown, full', -, -⟩ := h.setAll full writes
    rw [setAll_append, shown.get_written full' (still.trans writable) w.2 (by rwa [low, high]), ih,
      List.reverse_append, List.reverse_singleton, List.singleton_append, List.lookup_cons]
    by_cases same : p = w.1
    · simp [same]
    · simp [same, beq_false_of_ne same]

/-- Cells of the storage that the volume does not show stay as they are. -/
theorem Shows.cell_setAll (h : v.Shows base t) (full : base.Full) (writable : v.isWritable = true)
    (writes : List (P × T)) {q : P} (stored : Coord.within q base.low base.high = true)
    (hidden : ¬ Coord.within (Coord.apply t q) v.low v.high = true) :
    (v.setAll writes).storage.cell q = base.cell q := by
  induction writes using List.reverseRecOn with
  | nil => exact congrArg (·.cell q) h.storage
  | append_singleton writes w ih =>
    obtain ⟨low, high, still, shown, full', low', high'⟩ := h.setAll full writes
    rw [setAll_append, ← ih]
    by_cases inside : Coord.within w.1 v.low v.high = true
    · have inside' : Coord.within w.1 (v.setAll writes).low (v.setAll writes).high = true := by
        rwa [low, high]
      rw [shown.written_inside (still.trans writable) inside', storage_mapStorage,
        ArrayVolume.cell_withCell full' (shown.inside inside').1, if_neg]
      · rintro rfl
        rw [LawfulCoord.apply_invert] at hidden
        exact hidden inside
      · rwa [low', high', h.storage]
    · rw [shown.written_outside (still.trans writable) (by rwa [low, high])]

end Volume

end VoxelServer
