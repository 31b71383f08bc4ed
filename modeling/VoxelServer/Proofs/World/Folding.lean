import VoxelServer.Proofs.Computations
import VoxelServer.Proofs.World.Chains
import VoxelServer.Proofs.World.Composition
import VoxelServer.Proofs.World.Writes
import VoxelServer.World.Block

/-!
# Views in place of views around views

A part of a part, a part of a moved volume, and a moved volume that is moved further are made in
place: the view between is dropped, and what it refused has to be refused by the new one. Nobody who
reads and writes can tell:

* `Volume.accessAll`: any reads and writes, with their answers;
* `Volume.Alike`: volumes that look in the same places of the same array, and
  `Volume.Indistinguishable`: volumes that answer all reads and writes alike;
* `Volume.alike_narrowed`, `Volume.alike_transform`: a view made in place, and the one around it;
* `Volume.FoldOf.remake`: what one view preserves, to be carried by `SameOutcome.foldlM` through all
  that are made;
* `FoldingLaws`, `folding_is_nesting`: in space and on the map, both ways to make views give
  volumes that cannot be told apart.
-/

namespace VoxelServer

variable {P T : Type} [Coord P]

namespace Volume

/-! ## What can be told of a volume -/

inductive Access (P T : Type)
  | get (p : P)
  | set (p : P) (cell : T)

inductive Answer (P T : Type)
  | found (result : Except (OutOfBounds P) T)
  | written (result : Except (WriteError P) Unit)

def access [Inhabited T] (v : Volume P T) : Access P T → Answer P T × Volume P T
  | .get p => (.found (v.get p), v)
  | .set p cell =>
    let (result, v) := (VolumeWriter.put p cell).run.run v
    (.written result, v)

/-- Some reads and writes, one after the other: their answers, and the volume that they leave. -/
def accessAll [Inhabited T] (v : Volume P T) : List (Access P T) → List (Answer P T) × Volume P T
  | [] => ([], v)
  | a :: as =>
    let (answer, v) := v.access a
    let (answers, v) := v.accessAll as
    (answer :: answers, v)

/-- Volumes with the same box that answer all reads and writes alike, and leave the same array. -/
structure Indistinguishable [Inhabited T] (v w : Volume P T) : Prop where
  low : v.low = w.low
  high : v.high = w.high
  answers (accesses : List (Access P T)) : (v.accessAll accesses).1 = (w.accessAll accesses).1
  storage (accesses : List (Access P T)) :
    (v.accessAll accesses).2.storage = (w.accessAll accesses).2.storage

/-- Volumes that look in the same places of the same array. -/
structure Alike (v w : Volume P T) : Prop where
  low : v.low = w.low
  high : v.high = w.high
  storage : v.storage = w.storage
  isWritable : v.isWritable = w.isWritable
  locate (p : P) : v.locate p = w.locate p

namespace Alike

variable {u v w : Volume P T}

theorem refl (v : Volume P T) : v.Alike v := ⟨rfl, rfl, rfl, rfl, fun _ => rfl⟩

theorem trans (h : u.Alike v) (h' : v.Alike w) : u.Alike w :=
  ⟨h.low.trans h'.low, h.high.trans h'.high, h.storage.trans h'.storage,
    h.isWritable.trans h'.isWritable, fun p => (h.locate p).trans (h'.locate p)⟩

/-- The same change of the array keeps them alike. -/
theorem mapStorage (h : v.Alike w) {f : ArrayVolume P T → ArrayVolume P T}
    (low : ∀ a, (f a).low = a.low) (high : ∀ a, (f a).high = a.high) :
    (v.mapStorage f).Alike (w.mapStorage f) where
  low := by rw [(bounds_mapStorage low high v).1, (bounds_mapStorage low high w).1, h.low]
  high := by rw [(bounds_mapStorage low high v).2, (bounds_mapStorage low high w).2, h.high]
  storage := by rw [storage_mapStorage, storage_mapStorage, h.storage]
  isWritable := by rw [isWritable_mapStorage, isWritable_mapStorage, h.isWritable]
  locate p := by rw [locate_mapStorage low high, locate_mapStorage low high, h.locate]

theorem access [Inhabited T] (h : v.Alike w) (a : Access P T) :
    (v.access a).1 = (w.access a).1 ∧ (v.access a).2.Alike (w.access a).2 := by
  cases a with
  | get p => exact ⟨by simp only [Volume.access, get, h.storage, h.locate], h⟩
  | set p cell =>
    have same : v.target p = w.target p := by simp only [target, h.isWritable, h.locate]
    simp only [Volume.access, VolumeWriter.put_eq_target, same]
    cases w.target p with
    | ok q => exact ⟨rfl, h.mapStorage (fun _ => rfl) fun _ => rfl⟩
    | error e => exact ⟨rfl, h⟩

/-- Whoever only reads and writes cannot tell them apart. -/
theorem indistinguishable [Inhabited T] (h : v.Alike w) : v.Indistinguishable w := by
  have run (accesses : List (Access P T)) : (v.accessAll accesses).1 = (w.accessAll accesses).1 ∧
      (v.accessAll accesses).2.Alike (w.accessAll accesses).2 := by
    induction accesses generalizing v w with
    | nil => exact ⟨rfl, h⟩
    | cons a as ih =>
      obtain ⟨answer, alike⟩ := h.access a
      obtain ⟨answers, alike⟩ := ih alike
      exact ⟨congrArg₂ List.cons answer answers, alike⟩
  exact ⟨h.low, h.high, fun accesses => (run accesses).1, fun accesses => (run accesses).2.storage⟩

/-! The same view around both keeps them alike. -/

theorem readOnly (h : v.Alike w) : (readOnly v).Alike (readOnly w) :=
  ⟨h.low, h.high, h.storage, rfl, h.locate⟩

theorem downsize (h : v.Alike w) (low high : P) :
    (downsize v low high).Alike (downsize w low high) :=
  ⟨rfl, rfl, h.storage, h.isWritable, fun p => by simp only [locate_downsize, h.locate]⟩

theorem nestTransform (h : v.Alike w) (t : Coord.Transform P) :
    (v.nestTransform t).Alike (w.nestTransform t) := by
  have low : (v.nestTransform t).low = (w.nestTransform t).low := by
    simp only [Volume.nestTransform, imageBox, Volume.low, h.low, h.high]
  have high : (v.nestTransform t).high = (w.nestTransform t).high := by
    simp only [Volume.nestTransform, imageBox, Volume.high, h.low, h.high]
  refine ⟨low, high, h.storage, h.isWritable, fun p => ?_⟩
  have same := h.locate (Coord.apply (Coord.invert t) p)
  simp only [Volume.nestTransform, imageBox, locate_transformed, h.low, h.high, same]

end Alike

/-- Volumes with one box that show an array through maps that undo alike. -/
theorem Shows.alike {v w : Volume P T} {base : ArrayVolume P T} {s t : Coord.Transform P}
    (h : v.Shows base s) (h' : w.Shows base t) (low : v.low = w.low) (high : v.high = w.high)
    (writable : v.isWritable = w.isWritable)
    (same : ∀ p, Coord.apply (Coord.invert s) p = Coord.apply (Coord.invert t) p) : v.Alike w := by
  refine ⟨low, high, h.storage.trans h'.storage.symm, writable, fun p => ?_⟩
  by_cases inside : Coord.within p v.low v.high = true
  · rw [(h.inside inside).2, (h'.inside (low ▸ high ▸ inside)).2, same]
  · rw [h.outside inside, h'.outside (low ▸ high ▸ inside), low, high]

/-! ## Views made in place -/

/-- A volume narrowed in place, to a box that was checked. -/
def narrowed (v : Volume P T) (low high : P) : Volume P T :=
  match v with
  | .downsize parent _ _ => .downsize parent low high
  | .transformed parent t _ _ => .transformed parent t low high
  | v => .downsize v low high

theorem view_eq (v : Volume P T) (low high : P) :
    v.view low high = v.checkBox low high >>= fun _ => .ok (v.narrowed low high) := by
  cases v <;> rfl

/-- The views that move `v`, however often they are moved further or narrowed in place. -/
inductive MovedFrom (v : Volume P T) : Volume P T → Prop
  | new (t : Coord.Transform P) : MovedFrom v (v.nestTransform t)
  | transform {w : Volume P T} (t : Coord.Transform P) : MovedFrom v w → MovedFrom v (w.transform t)
  | view {w w' : Volume P T} {low high : P} : MovedFrom v w → w.view low high = .ok w' →
      MovedFrom v w'

section

variable [LawfulCoord P] {v w : Volume P T} {low high : P}

open LawfulCoord

/-- The new box lies in the old one, which therefore refuses nothing that the new one accepts. -/
theorem alike_narrowed (checked : v.checkBox low high = .ok ()) :
    (v.narrowed low high).Alike (downsize v low high) := by
  have part {p : P} (inside : Coord.within p low high = true) :
      Coord.within p v.low v.high = true :=
    within_trans (checkBox_ok checked).1 (checkBox_ok checked).2 inside
  cases v with
  | downsize parent low' high' =>
    refine ⟨rfl, rfl, rfl, rfl, fun p => ?_⟩
    simp only [narrowed, locate_downsize]
    exact ite_congr rfl (fun inside => (if_pos (part inside)).symm) fun _ => rfl
  | transformed parent t low' high' =>
    refine ⟨rfl, rfl, rfl, rfl, fun p => ?_⟩
    simp only [narrowed, locate_downsize, locate_transformed]
    exact ite_congr rfl (fun inside => (if_pos (part inside)).symm) fun _ => rfl
  | array | frozen | readOnly => exact .refl _

/-- The view between refuses nothing that the new one accepts, for it is its box that was moved.
The two maps are undone one after the other, or at once. -/
theorem alike_transform (box : Coord.within v.low v.low v.high = true) (t : Coord.Transform P) :
    (v.transform t).Alike (v.nestTransform t) := by
  cases v with
  | transformed parent s low high =>
    refine ⟨rfl, rfl, rfl, rfl, fun p => ?_⟩
    simp only [transform, nestTransform, locate_transformed, invert_andThen]
    refine ite_congr rfl (fun inside => ?_) fun _ => rfl
    exact (if_pos (within_of_imageBox box t inside)).symm
  | array | frozen | readOnly | downsize => exact .refl _

/-- Whatever box `v` has, that of a moved view is not turned inside out. -/
theorem MovedFrom.box (moved : MovedFrom v w) : Coord.within w.low w.low w.high = true := by
  induction moved with
  | new t => exact within_min_max _ _
  | @transform w t _ ih =>
    rw [(alike_transform ih t).low, (alike_transform ih t).high]
    exact within_min_max _ _
  | view _ made _ =>
    rw [(bounds_of_view made).1, (bounds_of_view made).2]
    exact corners (checkBox_ok (of_view made).1).2

end

/-! ## There and back -/

section

variable [WalkedCoord P] {v w : Volume P T} {t : Coord.Transform P}

open LawfulCoord WalkedCoord

/-- A box that is moved and moved back is the same box. -/
theorem imageBox_invert {low high : P} (box : Coord.within low low high = true)
    (t : Coord.Transform P) :
    imageBox (Coord.invert t) (imageBox t low high).1 (imageBox t low high).2 = (low, high) := by
  have moved (p : P) : Coord.within p
        (imageBox (Coord.invert t) (imageBox t low high).1 (imageBox t low high).2).1
        (imageBox (Coord.invert t) (imageBox t low high).1 (imageBox t low high).2).2 = true ↔
      Coord.within p low high = true := by
    rw [← within_apply_iff t box, ← within_apply_iff (Coord.invert t) (within_min_max _ _),
      invert_apply]
    rfl
  have box' := within_min_max (Coord.apply (Coord.invert t) (imageBox t low high).1)
    (Coord.apply (Coord.invert t) (imageBox t low high).2)
  obtain ⟨first, last⟩ := box_ext ((moved _).mp box') ((moved _).mp (high_within box'))
    ((moved _).mpr box) ((moved _).mpr (high_within box))
  exact Prod.ext first last

/-- The moved volume may be a view around `v`, or one made in place. -/
theorem Chain.alike_back (chain : v.Chain) (moved : w.Alike (v.nestTransform t)) :
    (w.transform (Coord.invert t)).Alike v := by
  obtain ⟨-, s, shown⟩ := chain.exists_shows
  have box : Coord.within w.low w.low w.high = true := by
    rw [moved.low, moved.high]
    exact within_min_max _ _
  have same := imageBox_invert shown.box t
  have back : ((v.nestTransform t).nestTransform (Coord.invert t)).Alike v := by
    refine ((shown.nestTransform t).nestTransform (Coord.invert t)).alike shown
      (congrArg Prod.fst same) (congrArg Prod.snd same) rfl fun p => ?_
    rw [invert_andThen, invert_andThen, apply_invert]
  exact (alike_transform box _).trans ((moved.nestTransform _).trans back)

end

end Volume

/-! ## View after view -/

namespace Volume

/-- What can be made of a volume. -/
inductive Remake (P : Type) [Coord P]
  | part (low high : P)
  | move (t : Coord.Transform P)
  | toOrigin
  | protect

/-- A new view: one in place of `v`, if `v` is a view that allows it, or one around `v`. -/
def remake (v : Volume P T) (inPlace : Bool) : Remake P → Except (OutOfBounds P) (Volume P T)
  | .part low high => if inPlace then v.view low high else v.nestView low high
  | .move t => .ok (if inPlace then v.transform t else v.nestTransform t)
  | .toOrigin =>
    .ok (if inPlace then v.relative else v.nestTransform (Coord.shift (Coord.origin - v.low)))
  | .protect => .ok (.readOnly v)

/-- A volume, and the same one with every view around the one before. -/
structure FoldOf (v w : Volume P T) : Prop extends Alike v w where
  box : Coord.within w.low w.low w.high = true

section

variable [LawfulCoord P] {v w : Volume P T}

open LawfulCoord

theorem FoldOf.move (h : v.FoldOf w) (inPlace : Bool) (t : Coord.Transform P) :
    (if inPlace then v.transform t else v.nestTransform t).FoldOf (w.nestTransform t) := by
  have box : Coord.within v.low v.low v.high = true := by
    rw [h.low, h.high]
    exact h.box
  have around : (v.nestTransform t).FoldOf (w.nestTransform t) :=
    ⟨h.nestTransform t, within_min_max _ _⟩
  cases inPlace with
  | false => exact around
  | true => exact ⟨(alike_transform box t).trans around.toAlike, around.box⟩

theorem FoldOf.part (h : v.FoldOf w) (inPlace : Bool) (low high : P) :
    SameOutcome FoldOf (if inPlace then v.view low high else v.nestView low high)
      (w.nestView low high) := by
  have same : v.checkBox low high = w.checkBox low high := by simp only [checkBox, h.low, h.high]
  simp only [view_eq, nestView, ← same]
  cases checked : v.checkBox low high with
  | error e => cases inPlace <;> exact .error e
  | ok =>
    have around : (downsize v low high).FoldOf (downsize w low high) :=
      ⟨h.downsize low high, corners (checkBox_ok checked).2⟩
    cases inPlace with
    | false => exact .ok around
    | true => exact .ok ⟨(alike_narrowed checked).trans around.toAlike, around.box⟩

theorem FoldOf.remake (h : v.FoldOf w) (inPlace : Bool) (r : Remake P) :
    SameOutcome FoldOf (v.remake inPlace r) (w.remake false r) := by
  cases r with
  | part low high => exact h.part inPlace low high
  | move t => exact .ok (h.move inPlace t)
  | toOrigin =>
    simp only [Volume.remake, relative, h.low]
    exact .ok (h.move inPlace _)
  | protect => exact .ok ⟨h.toAlike.readOnly, h.box⟩

theorem alike_view (v : Volume P T) (low high : P) :
    SameOutcome Alike (v.view low high) (v.nestView low high) := by
  rw [view_eq, nestView]
  cases checked : v.checkBox low high with
  | error e => exact .error e
  | ok => exact .ok (alike_narrowed checked)

end

end Volume

/-- Where views made in place agree with views around views. -/
structure FoldingLaws (P : Type) [Coord P] : Prop where
  transform {T : Type} [Inhabited T] {v w : Volume P T} (moved : v.MovedFrom w)
    (t : Coord.Transform P) : (w.transform t).Indistinguishable (w.nestTransform t)
  view {T : Type} [Inhabited T] (v : Volume P T) (low high : P) :
    SameOutcome Volume.Indistinguishable (v.view low high) (v.nestView low high)
  relative {T : Type} [Inhabited T] {v w : Volume P T} (moved : v.MovedFrom w) :
    w.relative.Indistinguishable (w.nestTransform (Coord.shift (Coord.origin - w.low))) ∧
      w.relative.low = Coord.origin
  round_trip {T : Type} [Inhabited T] {v : Volume P T} (chain : v.Chain) (t : Coord.Transform P) :
    ((v.nestTransform t).transform (Coord.invert t)).Indistinguishable v ∧
      ((v.transform t).transform (Coord.invert t)).Indistinguishable v
  /-- However many views are made, and whichever of them are made in place. -/
  chains {T : Type} [Inhabited T] {v : Volume P T} (chain : v.Chain)
    (remakes : List (Bool × Volume.Remake P)) :
    SameOutcome Volume.Indistinguishable
      (remakes.foldlM (fun v r => v.remake r.1 r.2) v)
      (remakes.foldlM (fun v r => v.remake false r.2) v)

theorem foldingLaws [WalkedCoord P]
    (shift_origin : ∀ {low high : P}, Coord.within low low high = true →
      (Volume.imageBox (Coord.shift (Coord.origin - low)) low high).1 = Coord.origin) :
    FoldingLaws P where
  transform moved t := (Volume.alike_transform moved.box t).indistinguishable
  view v low high := (v.alike_view low high).mono Volume.Alike.indistinguishable
  relative {_ _ _ w} moved := by
    have alike := Volume.alike_transform moved.box (Coord.shift (Coord.origin - w.low))
    exact ⟨alike.indistinguishable, alike.low.trans (shift_origin moved.box)⟩
  round_trip chain t := ⟨(chain.alike_back (.refl _)).indistinguishable,
    (chain.alike_back (Volume.alike_transform chain.box t)).indistinguishable⟩
  chains {_ _ v} chain remakes := by
    have start : v.FoldOf v := ⟨.refl v, chain.box⟩
    have outcome : SameOutcome Volume.FoldOf (remakes.foldlM (fun v r => v.remake r.1 r.2) v)
        (remakes.foldlM (fun v r => v.remake false r.2) v) :=
      SameOutcome.foldlM (fun r h => h.remake r.1 r.2) start remakes
    exact outcome.mono fun h => h.toAlike.indistinguishable

/-- **Folding views is nesting them, in space and on the map alike.** A part of a view, a moved
volume that is moved further or to the origin, and any number of these one after the other, have the
same box, answer all reads and writes alike and fail with the same errors, whether views are made in
place or around each other. Moving a volume and moving it back changes nothing. -/
theorem folding_is_nesting : FoldingLaws (Vec3 Int) ∧ FoldingLaws (Vec2 Int) := by
  constructor
  · refine foldingLaws fun {low high} box => ?_
    rw [Vec3.within_iff] at box
    simp only [Volume.imageBox, Coord.apply, Coord.shift, Coord.origin, Transform3.apply_shift,
      Vec3.eq_iff, Vec3.min_x, Vec3.min_y, Vec3.min_z, Vec3.add_x, Vec3.add_y, Vec3.add_z,
      Vec3.sub_x, Vec3.sub_y, Vec3.sub_z]
    omega
  · refine foldingLaws fun {low high} box => ?_
    rw [Vec2.within_iff] at box
    simp only [Volume.imageBox, Coord.apply, Coord.shift, Coord.origin, Transform2.apply_shift,
      Vec2.eq_iff, Vec2.min_x, Vec2.min_z, Vec2.add_x, Vec2.add_z, Vec2.sub_x, Vec2.sub_z]
    omega

/-- Part of an area that was turned, turned back: the cells outside of it stay hidden. -/
theorem turned_part_stays_narrow :
    let base : ArrayVolume (Vec2 Int) BiomeType :=
      ⟨⟨0, 0⟩, ⟨1, 2⟩, Array.replicate 6 .ocean⟩
    let back : Transform2 := .rotation (-1)
    ∃ part, ((Volume.array base).nestTransform (Transform2.rotation 1)).view ⟨1, -1⟩ ⟨2, 0⟩ =
        .ok part ∧ (Volume.array base).MovedFrom part ∧
      (part.transform back).Indistinguishable (part.nestTransform back) ∧
      (part.transform back).get ⟨0, 1⟩ = .ok .ocean ∧
      (part.transform back).get ⟨0, 0⟩ = .error ⟨⟨0, 0⟩, ⟨0, 1⟩, ⟨1, 2⟩⟩ := by
  intro base back
  have made : ((Volume.array base).nestTransform (Transform2.rotation 1)).view ⟨1, -1⟩ ⟨2, 0⟩ =
      .ok (.transformed (.array base) (Transform2.rotation 1) ⟨1, -1⟩ ⟨2, 0⟩) := rfl
  have moved := Volume.MovedFrom.view (.new _) made
  exact ⟨_, made, moved, folding_is_nesting.2.transform moved back, rfl, rfl⟩

end VoxelServer
