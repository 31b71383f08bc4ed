import VoxelServer.Proofs.World.Storage
import VoxelServer.World.Block
import VoxelServer.World.Worker

/-!
# Chains of views

Views of views of an array look through any number of boxes and rigid maps. However long the chain
is, it is one rigid map and one box:

* `Volume.ViewOf`: the chains over an array;
* `Volume.Shows`: a volume whose positions are those of its storage, moved by a rigid map;
* `Volume.exists_shows`: every chain is of this kind;
* `views_are_rigid`: what this means for reading and writing.
-/

namespace VoxelServer

variable {P T : Type} [Coord P]

theorem within_of_check {p low high : P} (h : check p low high = .ok ()) :
    Coord.within p low high = true := by
  unfold check at h
  split at h
  · assumption
  · cases h

namespace Volume

/-- The views that can be made of an array, one around or in place of the other. -/
inductive ViewOf (base : ArrayVolume P T) : Volume P T → Prop
  | array : ViewOf base (array base)
  | readOnly {v : Volume P T} : ViewOf base v → ViewOf base (readOnly v)
  | nestView {v w : Volume P T} {low high : P} : ViewOf base v →
      v.nestView low high = .ok w → ViewOf base w
  | view {v w : Volume P T} {low high : P} : ViewOf base v →
      v.view low high = .ok w → ViewOf base w
  | nestTransform {v : Volume P T} (t : Coord.Transform P) : ViewOf base v →
      ViewOf base (v.nestTransform t)
  | transform {v : Volume P T} (t : Coord.Transform P) : ViewOf base v → ViewOf base (v.transform t)
  | relative {v : Volume P T} : ViewOf base v → ViewOf base v.relative

/-- The positions of a volume are some of those of its storage, moved by a rigid map. Others are
refused by the volume itself. -/
structure Shows (v : Volume P T) (base : ArrayVolume P T) (t : Coord.Transform P) : Prop where
  storage : v.storage = base
  box : Coord.within v.low v.low v.high = true
  inside {p : P} : Coord.within p v.low v.high = true →
    Coord.within (Coord.apply (Coord.invert t) p) base.low base.high = true ∧
      v.locate p = .ok (Coord.apply (Coord.invert t) p)
  outside {p : P} : ¬ Coord.within p v.low v.high = true → v.locate p = .error ⟨p, v.low, v.high⟩

theorem Shows.readOnly {v : Volume P T} {base : ArrayVolume P T} {t : Coord.Transform P}
    (h : v.Shows base t) : (readOnly v).Shows base t :=
  ⟨h.storage, h.box, h.inside, h.outside⟩

/-! ## Boxes -/

theorem checkBox_ok {v : Volume P T} {low high : P} (h : v.checkBox low high = .ok ()) :
    Coord.within low v.low v.high = true ∧ Coord.within high low v.high = true := by
  unfold checkBox at h
  cases first : check low v.low v.high with
  | error e => simp [first, bind, Except.bind] at h
  | ok =>
    rw [first] at h
    exact ⟨within_of_check first, within_of_check h⟩

/-- A part is a part because its box was checked. -/
theorem of_nestView {v w : Volume P T} {low high : P} (h : v.nestView low high = .ok w) :
    v.checkBox low high = .ok () ∧ w = downsize v low high := by
  unfold nestView at h
  cases checked : v.checkBox low high with
  | error e => simp [checked, bind, Except.bind] at h
  | ok =>
    rw [checked] at h
    exact ⟨rfl, (Except.ok.inj h).symm⟩

/-- A part of a volume has the box that was asked for, and looks at the storage through the parent
of a part or a moved volume, or else through the volume. -/
theorem of_view {v w : Volume P T} {low high : P} (h : v.view low high = .ok w) :
    v.checkBox low high = .ok () ∧
      ((∃ parent low' high', v = downsize parent low' high' ∧ w = downsize parent low high) ∨
        (∃ parent t low' high', v = transformed parent t low' high' ∧
          w = transformed parent t low high) ∨
        w = downsize v low high) := by
  unfold view at h
  cases checked : v.checkBox low high with
  | error e => simp [checked, bind, Except.bind] at h
  | ok =>
    rw [checked] at h
    refine ⟨rfl, ?_⟩
    cases v with
    | downsize parent low' high' => exact .inl ⟨parent, low', high', rfl, (Except.ok.inj h).symm⟩
    | transformed parent t low' high' =>
      exact .inr (.inl ⟨parent, t, low', high', rfl, (Except.ok.inj h).symm⟩)
    | array | frozen | readOnly => exact .inr (.inr (Except.ok.inj h).symm)

theorem bounds_of_view {v w : Volume P T} {low high : P} (h : v.view low high = .ok w) :
    w.low = low ∧ w.high = high := by
  obtain ⟨-, ⟨_, _, _, -, rfl⟩ | ⟨_, _, _, _, -, rfl⟩ | rfl⟩ := of_view h <;> exact ⟨rfl, rfl⟩

/-! ## Each view shows its storage through one map -/

theorem locate_array (base : ArrayVolume P T) (p : P) :
    (array base).locate p =
      if Coord.within p base.low base.high = true then .ok p
      else .error ⟨p, base.low, base.high⟩ := by
  simp only [locate, check]
  split <;> rfl

theorem locate_downsize (v : Volume P T) (low high p : P) :
    (downsize v low high).locate p =
      if Coord.within p low high = true then v.locate p else .error ⟨p, low, high⟩ := by
  simp only [locate, check]
  split <;> rfl

theorem locate_transformed (v : Volume P T) (t : Coord.Transform P) (low high p : P) :
    (transformed v t low high).locate p =
      if Coord.within p low high = true then v.locate (Coord.apply (Coord.invert t) p)
      else .error ⟨p, low, high⟩ := by
  simp only [locate, check]
  split <;> rfl

section

variable [LawfulCoord P] {base : ArrayVolume P T} {v w : Volume P T} {s t : Coord.Transform P}
  {low high : P}

open LawfulCoord

theorem shows_array (box : Coord.within base.low base.low base.high = true) :
    (array base).Shows base Coord.identity where
  storage := rfl
  box := box
  inside {p} h := by
    rw [invert_identity]
    exact ⟨h, (locate_array base p).trans (if_pos h)⟩
  outside h := (locate_array base _).trans (if_neg h)

/-- A volume that looks where another one looks, at some of its positions moved once more. -/
theorem Shows.moved (h : v.Shows base t) (storage : w.storage = v.storage)
    (box : Coord.within w.low w.low w.high = true)
    (inside : ∀ {p : P}, Coord.within p w.low w.high = true →
      Coord.within (Coord.apply (Coord.invert s) p) v.low v.high = true ∧
        w.locate p = v.locate (Coord.apply (Coord.invert s) p))
    (outside : ∀ {p : P}, ¬ Coord.within p w.low w.high = true →
      w.locate p = .error ⟨p, w.low, w.high⟩) : w.Shows base (Coord.andThen t s) where
  storage := storage.trans h.storage
  box := box
  inside {p} hp := by
    obtain ⟨within, located⟩ := inside hp
    rw [invert_andThen, located]
    exact h.inside within
  outside := outside

/-- A volume that looks where another one looks, at some of its positions. -/
theorem Shows.part (h : v.Shows base t) (storage : w.storage = v.storage)
    (checked : v.checkBox w.low w.high = .ok ())
    (inside : ∀ {p : P}, Coord.within p w.low w.high = true → w.locate p = v.locate p)
    (outside : ∀ {p : P}, ¬ Coord.within p w.low w.high = true →
      w.locate p = .error ⟨p, w.low, w.high⟩) : w.Shows base t where
  storage := storage.trans h.storage
  box := corners (checkBox_ok checked).2
  inside {p} hp := by
    rw [inside hp]
    exact h.inside (within_trans (checkBox_ok checked).1 (checkBox_ok checked).2 hp)
  outside := outside

theorem Shows.downsize (h : v.Shows base t) (checked : v.checkBox low high = .ok ()) :
    (downsize v low high).Shows base t :=
  h.part rfl checked (fun hp => (locate_downsize v low high _).trans (if_pos hp))
    fun hp => (locate_downsize v low high _).trans (if_neg hp)

theorem Shows.nestView (h : v.Shows base t) (made : v.nestView low high = .ok w) :
    w.Shows base t := by
  obtain ⟨checked, rfl⟩ := of_nestView made
  exact h.downsize checked

/-- A view that is narrowed in place looks through the same parent, so that inside of its new box it
finds what it found before. -/
theorem Shows.view (h : v.Shows base t) (made : v.view low high = .ok w) : w.Shows base t := by
  obtain ⟨checked, ⟨parent, low', high', rfl, rfl⟩ | ⟨parent, s, low', high', rfl, rfl⟩ | rfl⟩ :=
    of_view made
  · refine h.part rfl checked (fun {p} hp => ?_) fun hp =>
      (locate_downsize parent low high _).trans (if_neg hp)
    have hp' := within_trans (checkBox_ok checked).1 (checkBox_ok checked).2 hp
    exact ((locate_downsize parent low high p).trans (if_pos hp)).trans
      ((locate_downsize parent low' high' p).trans (if_pos hp')).symm
  · refine h.part rfl checked (fun {p} hp => ?_) fun hp =>
      (locate_transformed parent s low high _).trans (if_neg hp)
    have hp' := within_trans (checkBox_ok checked).1 (checkBox_ok checked).2 hp
    exact ((locate_transformed parent s low high p).trans (if_pos hp)).trans
      ((locate_transformed parent s low' high' p).trans (if_pos hp')).symm
  · exact h.downsize checked

/-- A position of the image of a box is the image of one of the box. -/
theorem within_of_imageBox (box : Coord.within low low high = true) (s : Coord.Transform P) {p : P}
    (h : Coord.within p (imageBox s low high).1 (imageBox s low high).2 = true) :
    Coord.within (Coord.apply (Coord.invert s) p) low high = true := by
  rw [← apply_invert s p] at h
  exact (within_apply_iff s box).mp h

theorem Shows.nestTransform (h : v.Shows base t) (s : Coord.Transform P) :
    (v.nestTransform s).Shows base (Coord.andThen t s) :=
  h.moved rfl (within_min_max _ _)
    (fun hp => ⟨within_of_imageBox h.box s hp,
      (locate_transformed v s _ _ _).trans (if_pos hp)⟩)
    fun hp => (locate_transformed v s _ _ _).trans (if_neg hp)

/-- A moved volume that is moved further in place looks through the composed map, which undoes the
last move first. -/
theorem Shows.transform (h : v.Shows base t) (s : Coord.Transform P) :
    (v.transform s).Shows base (Coord.andThen t s) := by
  cases v with
  | transformed parent r low high =>
    refine h.moved rfl (within_min_max _ _) (fun {p} hp => ?_) fun hp =>
      (locate_transformed parent (Coord.andThen r s) _ _ _).trans (if_neg hp)
    have hp' := within_of_imageBox h.box s hp
    refine ⟨hp', ?_⟩
    rw [show (transformed parent r low high).locate (Coord.apply (Coord.invert s) p) = _ from
        (locate_transformed parent r low high _).trans (if_pos hp'), ← invert_andThen]
    exact (locate_transformed parent (Coord.andThen r s) _ _ _).trans (if_pos hp)
  | array | frozen | readOnly | downsize => exact h.nestTransform s

/-- A chain of views is one rigid map. -/
theorem exists_shows (box : Coord.within base.low base.low base.high = true)
    (chain : v.ViewOf base) : ∃ t, v.Shows base t := by
  induction chain with
  | array => exact ⟨_, shows_array box⟩
  | readOnly _ ih =>
    obtain ⟨t, h⟩ := ih
    exact ⟨t, h.readOnly⟩
  | nestView _ made ih =>
    obtain ⟨t, h⟩ := ih
    exact ⟨t, h.nestView made⟩
  | view _ made ih =>
    obtain ⟨t, h⟩ := ih
    exact ⟨t, h.view made⟩
  | nestTransform s _ ih =>
    obtain ⟨t, h⟩ := ih
    exact ⟨_, h.nestTransform s⟩
  | transform s _ ih =>
    obtain ⟨t, h⟩ := ih
    exact ⟨_, h.transform s⟩
  | relative _ ih =>
    obtain ⟨t, h⟩ := ih
    exact ⟨_, h.transform _⟩

end

/-! ## Writes go through a chain of views and leave it as it is -/

section

variable {f : ArrayVolume P T → ArrayVolume P T}

theorem storage_mapStorage (v : Volume P T) : (v.mapStorage f).storage = f v.storage := by
  induction v with
  | array | frozen => rfl
  | readOnly _ ih => exact ih
  | downsize _ _ _ ih => exact ih
  | transformed _ _ _ _ ih => exact ih

/-- Whatever keeps the box of the storage keeps the boxes of all views, and where they look. -/
theorem bounds_mapStorage (low : ∀ a, (f a).low = a.low) (high : ∀ a, (f a).high = a.high)
    (v : Volume P T) : (v.mapStorage f).low = v.low ∧ (v.mapStorage f).high = v.high := by
  induction v with
  | array a => exact ⟨low a, high a⟩
  | frozen a => exact ⟨low a, high a⟩
  | readOnly _ ih => exact ih
  | downsize => exact ⟨rfl, rfl⟩
  | transformed => exact ⟨rfl, rfl⟩

theorem locate_mapStorage (low : ∀ a, (f a).low = a.low) (high : ∀ a, (f a).high = a.high)
    (v : Volume P T) (p : P) : (v.mapStorage f).locate p = v.locate p := by
  induction v generalizing p with
  | array a => simp only [mapStorage, locate, low, high]
  | frozen a => simp only [mapStorage, locate, low, high]
  | readOnly _ ih => exact ih p
  | downsize _ _ _ ih => simp only [mapStorage, locate, ih]
  | transformed _ _ _ _ ih => simp only [mapStorage, locate, ih]

end

section

variable {base : ArrayVolume P T} {v : Volume P T} {t : Coord.Transform P}

/-- With other cells in its storage a volume shows these as it showed the old ones. -/
theorem Shows.mapStorage {f : ArrayVolume P T → ArrayVolume P T} (h : v.Shows base t)
    (low : ∀ a, (f a).low = a.low) (high : ∀ a, (f a).high = a.high) :
    (v.mapStorage f).Shows (f base) t := by
  have bounds := v.bounds_mapStorage low high
  have located := v.locate_mapStorage low high
  constructor
  · rw [storage_mapStorage, h.storage]
  · rw [bounds.1, bounds.2]
    exact h.box
  · intro p hp
    rw [bounds.1, bounds.2] at hp
    rw [located, low, high]
    exact h.inside hp
  · intro p hp
    rw [bounds.1, bounds.2] at hp ⊢
    rw [located]
    exact h.outside hp

theorem Shows.set_inside (h : v.Shows base t) (writable : v.isWritable = true) {p : P}
    (hp : Coord.within p v.low v.high = true) (c : T) :
    v.set p c = .ok (v.mapStorage (·.withCell (Coord.apply (Coord.invert t) p) c)) := by
  simp only [set, target, writable, (h.inside hp).2]
  rfl

theorem Shows.set_outside (h : v.Shows base t) (writable : v.isWritable = true) {p : P}
    (hp : ¬ Coord.within p v.low v.high = true) (c : T) :
    v.set p c = .error (.outOfBounds ⟨p, v.low, v.high⟩) := by
  simp only [set, target, writable, h.outside hp]
  rfl

variable [Inhabited T]

theorem Shows.get_inside (h : v.Shows base t) {p : P} (hp : Coord.within p v.low v.high = true) :
    v.get p = .ok (base.cell (Coord.apply (Coord.invert t) p)) := by
  rw [get, (h.inside hp).2, h.storage]
  rfl

theorem Shows.get_outside (h : v.Shows base t) {p : P}
    (hp : ¬ Coord.within p v.low v.high = true) : v.get p = .error ⟨p, v.low, v.high⟩ := by
  rw [get, h.outside hp]
  rfl

/-- A write through a view is seen at its position of the view, and nowhere else. -/
theorem Shows.get_withCell [LawfulCoord P] (h : v.Shows base t) (full : base.Full) {p : P}
    (hp : Coord.within p v.low v.high = true) (c : T) (p' : P) :
    (v.mapStorage (·.withCell (Coord.apply (Coord.invert t) p) c)).get p' =
      if p' = p then .ok c else v.get p' := by
  have after := h.mapStorage (f := (·.withCell (Coord.apply (Coord.invert t) p) c)) (fun _ => rfl)
    fun _ => rfl
  have bounds := v.bounds_mapStorage
    (f := (·.withCell (Coord.apply (Coord.invert t) p) c)) (fun _ => rfl) fun _ => rfl
  by_cases hp' : Coord.within p' v.low v.high = true
  · have written := ArrayVolume.cell_withCell full (h.inside hp).1 (h.inside hp').1 c
    rw [after.get_inside (by rwa [bounds.1, bounds.2]), written, h.get_inside hp']
    simp only [(apply_bijective (Coord.invert t)).injective.eq_iff]
    split <;> rfl
  · rw [after.get_outside (by rwa [bounds.1, bounds.2]), bounds.1, bounds.2, h.get_outside hp',
      if_neg fun same : p' = p => hp' (same ▸ hp)]

end

end Volume

/-- Writing in place is `Volume.set`, and a write that fails leaves the volume as it is. -/
theorem VolumeWriter.put_eq (v : Volume P T) (p : P) (c : T) :
    (put p c).run.run v =
      match v.set p c with
      | .ok w => (.ok (), w)
      | .error e => (.error e, v) := by
  cases reached : v.target p with
  | error e => simp [put, Volume.set, reached, bind, Except.bind, StateT.run]
  | ok q =>
    simp only [put, Volume.set, reached, StateT.run, ExceptT.run_mk]
    rfl

namespace Volume

/-- A volume that is the image of a part of `base` under the rigid map `t`, cell by cell. -/
structure IsImage [Inhabited T] (v : Volume P T) (base : ArrayVolume P T)
    (t : Coord.Transform P) : Prop where
  bijective : Function.Bijective (Coord.apply t)
  apply_invert (p : P) : Coord.apply t (Coord.apply (Coord.invert t) p) = p
  within_base {p : P} : Coord.within p v.low v.high = true →
    Coord.within (Coord.apply (Coord.invert t) p) base.low base.high = true
  get_inside {p : P} : Coord.within p v.low v.high = true →
    v.get p = .ok (base.cell (Coord.apply (Coord.invert t) p))
  get_outside {p : P} : ¬ Coord.within p v.low v.high = true →
    v.get p = .error ⟨p, v.low, v.high⟩
  /-- A write changes one cell of the base, and one position of the view. -/
  set_inside {p : P} : v.isWritable = true → Coord.within p v.low v.high = true → ∀ c, ∃ w,
    v.set p c = .ok w ∧
      w.storage.low = base.low ∧ w.storage.high = base.high ∧
      (∀ q, Coord.within q base.low base.high = true →
        w.storage.cell q = if q = Coord.apply (Coord.invert t) p then c else base.cell q) ∧
      ∀ p', w.get p' = if p' = p then .ok c else v.get p'
  /-- A program that writes is left with the volume it had. -/
  set_outside {p : P} : v.isWritable = true → ¬ Coord.within p v.low v.high = true → ∀ c,
    v.set p c = .error (.outOfBounds ⟨p, v.low, v.high⟩) ∧
      (VolumeWriter.put p c).run.run v = (.error (.outOfBounds ⟨p, v.low, v.high⟩), v)
  bounds_view {low high : P} {w : Volume P T} : v.view low high = .ok w →
    w.low = low ∧ w.high = high
  bounds_nestView {low high : P} {w : Volume P T} : v.nestView low high = .ok w →
    w.low = low ∧ w.high = high

theorem Shows.isImage [LawfulCoord P] [Inhabited T] {base : ArrayVolume P T} {v : Volume P T}
    {t : Coord.Transform P} (h : v.Shows base t) (full : base.Full) : v.IsImage base t where
  bijective := apply_bijective t
  apply_invert := LawfulCoord.apply_invert t
  within_base hp := (h.inside hp).1
  get_inside := h.get_inside
  get_outside := h.get_outside
  set_inside {p} writable hp c := by
    have stored : (v.mapStorage (·.withCell (Coord.apply (Coord.invert t) p) c)).storage =
        base.withCell (Coord.apply (Coord.invert t) p) c := by
      rw [storage_mapStorage, h.storage]
    refine ⟨_, h.set_inside writable hp c, congrArg (·.low) stored,
      congrArg (·.high) stored, fun q hq => ?_, h.get_withCell full hp c⟩
    rw [stored]
    exact ArrayVolume.cell_withCell full (h.inside hp).1 hq c
  set_outside writable hp c := by
    have failed := h.set_outside writable hp c
    exact ⟨failed, by rw [VolumeWriter.put_eq, failed]⟩
  bounds_view := bounds_of_view
  bounds_nestView made := by
    obtain ⟨-, rfl⟩ := of_nestView made
    exact ⟨rfl, rfl⟩

end Volume

/-- **However many views of views of an array there are, one rigid map says where each position of
the last one lies in the array, for reading and for writing, in space and on the map alike.** -/
theorem views_are_rigid [Inhabited T] :
    (∀ (base : ArrayVolume (Vec3 Int) T) (v : Volume (Vec3 Int) T), base.Full → v.ViewOf base →
      ∃ t : Transform3, v.IsImage base t) ∧
    ∀ (base : ArrayVolume (Vec2 Int) T) (v : Volume (Vec2 Int) T), base.Full → v.ViewOf base →
      ∃ t : Transform2, v.IsImage base t := by
  constructor
  · intro base v full chain
    obtain ⟨t, shown⟩ := Volume.exists_shows full.box chain
    exact ⟨t, shown.isImage full⟩
  · intro base v full chain
    obtain ⟨t, shown⟩ := Volume.exists_shows full.box chain
    exact ⟨t, shown.isImage full⟩

/-- A part of an array is turned about the vertical axis, and a part of this is looked at. -/
theorem turned_part_is_rigid :
    ∃ (base : ArrayVolume (Vec3 Int) BlockState) (v : Volume (Vec3 Int) BlockState)
      (t : Transform3), base.Full ∧ v.ViewOf base ∧ (v.low, v.high) = (⟨0, 0, -3⟩, ⟨1, 1, -1⟩) ∧
        v.IsImage base t := by
  let base : ArrayVolume (Vec3 Int) BlockState :=
    ⟨⟨0, 0, 0⟩, ⟨3, 1, 2⟩, Array.replicate 24 default⟩
  have full : base.Full := ⟨by decide, by decide⟩
  have half : (Volume.array base).nestView ⟨1, 0, 0⟩ ⟨3, 1, 2⟩ =
      .ok (.downsize (.array base) ⟨1, 0, 0⟩ ⟨3, 1, 2⟩) := rfl
  let turned := (Volume.downsize (.array base) ⟨1, 0, 0⟩ ⟨3, 1, 2⟩).nestTransform
    (Transform3.rotation 1 .y)
  have narrowed : turned.view ⟨0, 0, -3⟩ ⟨1, 1, -1⟩ =
      .ok (.transformed (.downsize (.array base) ⟨1, 0, 0⟩ ⟨3, 1, 2⟩)
        (Transform3.rotation 1 .y) ⟨0, 0, -3⟩ ⟨1, 1, -1⟩) := rfl
  have chain := Volume.ViewOf.view (.nestTransform _ (.nestView .array half)) narrowed
  obtain ⟨t, image⟩ := views_are_rigid.1 base _ full chain
  exact ⟨base, _, t, full, chain, rfl, image⟩

end VoxelServer
