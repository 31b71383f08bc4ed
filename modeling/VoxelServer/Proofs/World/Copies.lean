import VoxelServer.Proofs.World.Arrays
import VoxelServer.Proofs.World.Folding

/-!
# Copies

A copy is made cell by cell, in the order of storage, and takes a blank cell where a read fails. No
read does, for a volume that can be made can be read all over its own box:

* `Volume.Chain.mapM_get`: the reads behind a copy all succeed, and its cells are what they found;
* `Volume.ReadsAlike`: volumes in which all reads give the same, and `ReadsAlike.remake`: so they
  do in the same view of both;
* `CopyLaws`, `copies_are_faithful`: in space and on the map, a copy is read like the volume it was
  made of, and it makes no difference whether a volume or a view of it is copied first.
-/

namespace VoxelServer

variable {P T : Type} [Coord P]

/-- Which cell is taken for blank does not matter to an array with all of its cells. -/
theorem ArrayVolume.cell_of_full [LawfulCoord P] {a : ArrayVolume P T} (full : a.Full) {p : P}
    (inside : Coord.within p a.low a.high = true) (blank blank' : Inhabited T) :
    @cell P T _ blank a p = @cell P T _ blank' a p := by
  have bound : Coord.index a.low a.high p < a.cells.size := by
    rw [full.size]
    exact LawfulCoord.index_lt inside
  simp only [cell, Array.getD_eq_getD_getElem?, Array.getElem?_eq_getElem bound, Option.getD_some]

namespace Volume

/-! ## The cells of a copy -/

section

variable [WalkedCoord P] {v : Volume P T}

open WalkedCoord

theorem Chain.get_of_blank (chain : v.Chain) {p : P}
    (inside : Coord.within p v.low v.high = true) (blank blank' : Inhabited T) :
    @get P T _ blank v p = @get P T _ blank' v p := by
  obtain ⟨full, t, shown⟩ := chain.exists_shows
  rw [@Shows.get_inside _ _ _ _ _ _ blank shown _ inside,
    @Shows.get_inside _ _ _ _ _ _ blank' shown _ inside,
    ArrayVolume.cell_of_full full (shown.inside inside).1 blank blank']

/-- The reads behind a copy, one for each position of the box, all succeed. -/
theorem Chain.mapM_get [Inhabited T] (chain : v.Chain) :
    v.positions.mapM v.get = .ok v.copy.cells.toList := by
  have read : ∀ p ∈ v.positions, v.get p = .ok (v.cellAt p) := by
    intro p mem
    exact chain.get_eq (mem_positions.mp mem)
  rw [mapM_congr_of_mem read]
  exact List.mapM_pure

/-- A copy does not depend on what stands in for a failing read. -/
theorem Chain.copy_of_blank (chain : v.Chain) (blank blank' : Inhabited T) :
    @copy P T _ blank v = @copy P T _ blank' v := by
  have same : ∀ p ∈ v.positions, @get P T _ blank v p = @get P T _ blank' v p := by
    intro p mem
    exact chain.get_of_blank (mem_positions.mp mem) blank blank'
  have cells := (@Chain.mapM_get P T _ _ v blank chain).symm.trans
    ((mapM_congr_of_mem same).trans chain.mapM_get)
  exact congrArg (ArrayVolume.mk v.low v.high) (Array.toList_inj.mp (Except.ok.inj cells))

variable [Inhabited T]

theorem Chain.full_copy (chain : v.Chain) : v.copy.Full := ArrayVolume.full_copy chain.box

/-- The cell at the place of a position is the one that the volume shows there. -/
theorem getElem?_copy {p : P} (inside : Coord.within p v.low v.high = true) :
    v.copy.cells[Coord.index v.low v.high p]? = some (v.cellAt p) := by
  have here := getElem?_index inside
  simp only [Volume.copy, List.getElem?_toArray, List.getElem?_map, positions, here]
  rfl

theorem Chain.get_copy (chain : v.Chain) (p : P) :
    (Volume.array v.copy).get p = v.get p ∧ (Volume.frozen v.copy).get p = v.get p := by
  have shown := shows_array chain.full_copy.box
  obtain ⟨-, t, original⟩ := chain.exists_shows
  have read : (Volume.array v.copy).get p = v.get p := by
    by_cases inside : Coord.within p v.low v.high = true
    · have stored := (ArrayVolume.Made.copy v chain.box).cell_eq inside
      rw [shown.get_inside inside, invert_identity, stored, chain.get_eq inside]
      rfl
    · rw [shown.get_outside inside, original.get_outside inside]
      rfl
  exact ⟨read, read⟩

end

/-! ## Views of copies -/

section

variable [Inhabited T]

/-- Volumes with one box, not turned inside out, in which all reads give the same. -/
structure ReadsAlike (v w : Volume P T) : Prop where
  box : Coord.within v.low v.low v.high = true
  low : v.low = w.low
  high : v.high = w.high
  get (p : P) : v.get p = w.get p

theorem get_downsize (v : Volume P T) (low high p : P) :
    (downsize v low high).get p =
      if Coord.within p low high = true then v.get p else .error ⟨p, low, high⟩ := by
  simp only [get, locate_downsize, storage]
  split <;> rfl

theorem get_transformed (v : Volume P T) (t : Coord.Transform P) (low high p : P) :
    (transformed v t low high).get p =
      if Coord.within p low high = true then v.get (Coord.apply (Coord.invert t) p)
      else .error ⟨p, low, high⟩ := by
  simp only [get, locate_transformed, storage]
  split <;> rfl

variable {u v w : Volume P T}

/-- A view made in place is read like the one around the volume. -/
theorem FoldOf.readsAlike (h : v.FoldOf w) : v.ReadsAlike w where
  box := by
    rw [h.low, h.high]
    exact h.box
  low := h.low
  high := h.high
  get p := by simp only [Volume.get, h.storage, h.locate]

namespace ReadsAlike

theorem symm (h : v.ReadsAlike w) : w.ReadsAlike v where
  box := by
    rw [← h.low, ← h.high]
    exact h.box
  low := h.low.symm
  high := h.high.symm
  get p := (h.get p).symm

theorem trans (h : u.ReadsAlike v) (h' : v.ReadsAlike w) : u.ReadsAlike w :=
  ⟨h.box, h.low.trans h'.low, h.high.trans h'.high, fun p => (h.get p).trans (h'.get p)⟩

/-- A copy is made of what is read. -/
theorem copy (h : v.ReadsAlike w) : v.copy = w.copy := by
  simp only [Volume.copy, positions, h.low, h.high, h.get]

theorem nestTransform [LawfulCoord P] (h : v.ReadsAlike w) (t : Coord.Transform P) :
    (v.nestTransform t).ReadsAlike (w.nestTransform t) where
  box := LawfulCoord.within_min_max _ _
  low := by simp only [Volume.nestTransform, imageBox, Volume.low, h.low, h.high]
  high := by simp only [Volume.nestTransform, imageBox, Volume.high, h.low, h.high]
  get p := by simp only [Volume.nestTransform, imageBox, get_transformed, h.low, h.high, h.get]

theorem nestView [LawfulCoord P] (h : v.ReadsAlike w) (low high : P) :
    SameOutcome ReadsAlike (v.nestView low high) (w.nestView low high) := by
  have same : v.checkBox low high = w.checkBox low high := by simp only [checkBox, h.low, h.high]
  simp only [Volume.nestView, ← same]
  cases checked : v.checkBox low high with
  | error e => exact .error e
  | ok =>
    refine .ok ⟨LawfulCoord.corners (checkBox_ok checked).2, rfl, rfl, fun p => ?_⟩
    simp only [get_downsize, h.get]

/-- The same view of both is read alike, or refused in both. -/
theorem remake [LawfulCoord P] (h : v.ReadsAlike w) (inPlace : Bool) (r : Remake P) :
    SameOutcome ReadsAlike (v.remake inPlace r) (w.remake inPlace r) := by
  have fold : SameOutcome FoldOf (v.remake inPlace r) (v.remake false r) :=
    FoldOf.remake ⟨.refl v, h.box⟩ inPlace r
  have fold' : SameOutcome FoldOf (w.remake inPlace r) (w.remake false r) :=
    FoldOf.remake ⟨.refl w, h.symm.box⟩ inPlace r
  have around : SameOutcome ReadsAlike (v.remake false r) (w.remake false r) := by
    cases r with
    | part low high => exact h.nestView low high
    | move t => exact .ok (h.nestTransform t)
    | toOrigin =>
      have same := h.nestTransform (Coord.shift (Coord.origin - v.low))
      simp only [Volume.remake, ← h.low]
      exact .ok same
    | protect => exact .ok ⟨h.box, h.low, h.high, h.get⟩
  have before := fold.trans around fun made alike => made.readsAlike.trans alike
  exact before.trans (fold'.symm FoldOf.readsAlike) fun alike made => alike.trans made.symm

end ReadsAlike

end

end Volume

/-- What copies have in common with the volumes that they are made of. -/
structure CopyLaws (P : Type) [Coord P] : Prop where
  box {T : Type} [Inhabited T] (v : Volume P T) : v.copy.low = v.low ∧ v.copy.high = v.high
  /-- Reads of a copy find or refuse what reads of the volume do, whether it may be changed later
  or not. -/
  get {T : Type} [Inhabited T] {v : Volume P T} (chain : v.Chain) (p : P) :
    (Volume.array v.copy).get p = v.get p ∧ (Volume.frozen v.copy).get p = v.get p
  /-- The cell of each position stands at its place, -/
  place {T : Type} [Inhabited T] {v : Volume P T} (chain : v.Chain) {p : P}
    (inside : Coord.within p v.low v.high = true) :
    ∃ c, v.get p = .ok c ∧ v.copy.cells[Coord.index v.low v.high p]? = some c
  /-- and there are no others. -/
  size {T : Type} [Inhabited T] {v : Volume P T} (chain : v.Chain) :
    v.copy.cells.size = Coord.count v.low v.high
  reads {T : Type} [Inhabited T] {v : Volume P T} (chain : v.Chain) :
    v.positions.mapM v.get = .ok v.copy.cells.toList
  blank {T : Type} {v : Volume P T} (chain : v.Chain) (blank blank' : Inhabited T) :
    @Volume.copy P T _ blank v = @Volume.copy P T _ blank' v
  /-- Views of a copy, made in place or not, are copied like those of the volume. -/
  views {T : Type} [Inhabited T] {v : Volume P T} (chain : v.Chain)
    (remakes : List (Bool × Volume.Remake P)) :
    SameOutcome (fun x y : Volume P T => x.copy = y.copy)
        (remakes.foldlM (fun v r => v.remake r.1 r.2) v)
        (remakes.foldlM (fun v r => v.remake r.1 r.2) (.array v.copy)) ∧
      SameOutcome (fun x y : Volume P T => x.copy = y.copy)
        (remakes.foldlM (fun v r => v.remake r.1 r.2) v)
        (remakes.foldlM (fun v r => v.remake r.1 r.2) (.frozen v.copy))

theorem copyLaws [WalkedCoord P] : CopyLaws P where
  box v := ⟨rfl, rfl⟩
  get chain := chain.get_copy
  place {_ _ _} chain {_} inside := ⟨_, chain.get_eq inside, Volume.getElem?_copy inside⟩
  size chain := chain.full_copy.size
  reads chain := chain.mapM_get
  blank chain := chain.copy_of_blank
  views {_ _ v} chain remakes := by
    have run {w : Volume P _} (same : v.ReadsAlike w) :=
      (SameOutcome.foldlM (fun r h => h.remake r.1 r.2) same remakes).mono Volume.ReadsAlike.copy
    constructor
    · exact run ⟨chain.box, rfl, rfl, fun p => (chain.get_copy p).1.symm⟩
    · exact run ⟨chain.box, rfl, rfl, fun p => (chain.get_copy p).2.symm⟩

/-- **Copies are faithful, in space and on the map alike.** A copy of any volume that can be made has
its box, finds or refuses at every position what the volume did, and holds the cells of its
positions in the order of storage and nothing else; no blank cell ever stands in for a read that
failed. Copying a view is the same as taking this view of a copy and copying it. -/
theorem copies_are_faithful : CopyLaws (Vec3 Int) ∧ CopyLaws (Vec2 Int) := ⟨copyLaws, copyLaws⟩

/-- A turned area with a desert in one corner, its copy, and the copies of a part of either. -/
theorem turned_desert_is_copied :
    let base : ArrayVolume (Vec2 Int) BiomeType :=
      ⟨⟨0, 0⟩, ⟨1, 0⟩, #[.ocean, .desert]⟩
    let turned := (Volume.array base).nestTransform (Transform2.rotation 1)
    turned.Chain ∧ turned.get ⟨0, -1⟩ = .ok .desert ∧
      (Volume.array turned.copy).get ⟨0, -1⟩ = turned.get ⟨0, -1⟩ ∧
      (∃ c, turned.get ⟨0, -1⟩ = .ok c ∧ turned.copy.cells[0]? = some c) ∧
      ∃ part part', turned.view ⟨0, -1⟩ ⟨0, -1⟩ = .ok part ∧
        (Volume.array turned.copy).view ⟨0, -1⟩ ⟨0, -1⟩ = .ok part' ∧ part.copy = part'.copy := by
  intro base turned
  have full : base.Full := ⟨by decide, by decide⟩
  have chain : turned.Chain := .nestTransform _ (.array full)
  have made : turned.view ⟨0, -1⟩ ⟨0, -1⟩ =
      .ok (.transformed (.array base) (Transform2.rotation 1) ⟨0, -1⟩ ⟨0, -1⟩) := rfl
  have made' : (Volume.array turned.copy).view ⟨0, -1⟩ ⟨0, -1⟩ =
      .ok (.downsize (.array turned.copy) ⟨0, -1⟩ ⟨0, -1⟩) := rfl
  have laws := copies_are_faithful.2
  refine ⟨chain, rfl, (laws.get chain _).1, laws.place chain (by decide), _, _, made, made', ?_⟩
  have same := (laws.views chain [(true, .part ⟨0, -1⟩ ⟨0, -1⟩)]).1
  simp only [List.foldlM_cons, List.foldlM_nil, Volume.remake, if_true, made, made'] at same
  cases same with
  | ok copied => exact copied

end VoxelServer
