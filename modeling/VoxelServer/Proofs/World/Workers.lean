import VoxelServer.Proofs.Computations
import VoxelServer.Proofs.World.Chains
import VoxelServer.Proofs.World.Writes

/-!
# Work on all cells

The workers go through a box and stop at the first access that fails. None fails once the corners
of the box have been checked, for a chain of views can be read and written at every position of
its box. So a worker does all of its work or none:

* `Volume.paint`: a volume with new cells at some positions, written one after the other;
* `Volume.Repainted`: a volume that differs from another one inside of a box, and nowhere else;
* `VolumeWriter.run_forM`: a loop of writes that cannot fail;
* `BulkLaws`, `bulk_work_is_atomic`: what every worker does, in space and on the map alike.
-/

namespace VoxelServer

variable {P S T U A : Type} [Coord P]

namespace Volume

/-- A volume with new cells at some positions, written one after the other. -/
def paint (v : Volume P T) (value : P → T) (ps : List P) : Volume P T :=
  v.setAll (ps.map fun p => (p, value p))

/-- Whether one volume contains every position of another. -/
def Within (v : Volume P S) (w : Volume P T) : Prop :=
  ∀ p, Coord.within p v.low v.high = true → Coord.within p w.low w.high = true

theorem paint_append (v : Volume P T) (value : P → T) (ps : List P) (p : P) :
    v.paint value (ps ++ [p]) = (v.paint value ps).written p (value p) := by
  rw [paint, List.map_append]
  exact v.setAll_append _ _

theorem lookup_paint (value : P → T) (ps : List P) (p : P) :
    (ps.map fun p => (p, value p)).reverse.lookup p = if p ∈ ps then some (value p) else none := by
  have forward (qs : List P) : (qs.map fun p => (p, value p)).lookup p =
      if p ∈ qs then some (value p) else none := by
    induction qs with
    | nil => rfl
    | cons q qs ih =>
      rw [List.map_cons, List.lookup_cons, ih]
      by_cases same : p = q
      · simp [same]
      · simp [same, beq_false_of_ne same]
  rw [← List.map_reverse, forward]
  simp only [List.mem_reverse]

/-- A volume that differs from `v` in the box from `low` to `high`: each of its positions is written
once, in the order of a walk, and nothing else changes, neither in the volume nor in the array
behind it. -/
structure Repainted [Inhabited T] (v w : Volume P T) (low high : P) (value : P → T) : Prop where
  writes : w = v.paint value (Coord.positions low high)
  in_order : Coord.InOrder low high
  bounds : w.low = v.low ∧ w.high = v.high
  inside {p : P} : Coord.within p low high = true → w.get p = .ok (value p)
  outside {p : P} : ¬ Coord.within p low high = true → w.get p = v.get p
  stored_box : w.storage.low = v.storage.low ∧ w.storage.high = v.storage.high
  stored {q : P} : Coord.within q v.storage.low v.storage.high = true →
    (∀ p, Coord.within p low high = true → v.locate p ≠ .ok q) →
      w.storage.cell q = v.storage.cell q

variable [WalkedCoord P] [Inhabited T] {v : Volume P T} {low high : P}

open LawfulCoord WalkedCoord

theorem Chain.get_paint (chain : v.Chain) (writable : v.isWritable = true) (value : P → T)
    (ps : List P) {p : P} (inside : Coord.within p v.low v.high = true) :
    (v.paint value ps).get p = if p ∈ ps then .ok (value p) else v.get p := by
  obtain ⟨full, t, shown⟩ := chain.exists_shows
  rw [paint, shown.get_setAll full writable _ inside, lookup_paint, shown.get_inside inside]
  split <;> rfl

theorem Chain.repainted (chain : v.Chain) (writable : v.isWritable = true)
    (part : ∀ p, Coord.within p low high = true → Coord.within p v.low v.high = true)
    (value : P → T) : v.Repainted (v.paint value (Coord.positions low high)) low high value := by
  obtain ⟨full, t, shown⟩ := chain.exists_shows
  have kept := shown.setAll full ((Coord.positions low high).map fun p => (p, value p))
  have outside {p : P} (h : ¬ Coord.within p low high = true) :
      (v.paint value (Coord.positions low high)).get p = v.get p := by
    by_cases inside : Coord.within p v.low v.high = true
    · rw [chain.get_paint writable value _ inside, if_neg fun mem => h (mem_positions.mp mem)]
    · rw [shown.get_outside inside, ← kept.low, ← kept.high]
      exact kept.shows_storage.get_outside (by rwa [kept.low, kept.high])
  refine ⟨rfl, inOrder low high, ⟨kept.low, kept.high⟩, fun {p} h => ?_, outside,
    ⟨kept.storage_low, kept.storage_high⟩, fun {q} stored elsewhere => ?_⟩
  · rw [chain.get_paint writable value _ (part p h), if_pos (mem_positions.mpr h)]
  · by_cases visible : Coord.within (Coord.apply t q) v.low v.high = true
    -- The volume shows the cell at a position outside of the box, where nothing was written.
    · have back : Coord.apply (Coord.invert t) (Coord.apply t q) = q := invert_apply t q
      have located := (shown.inside visible).2
      have unchanged := outside fun h => elsewhere _ h (located.trans (congrArg _ back))
      rw [shown.get_inside visible, back] at unchanged
      have after := kept.shows_storage.get_inside (p := Coord.apply t q)
        (by rwa [kept.low, kept.high])
      rw [back] at after
      exact Except.ok.inj (after.symm.trans unchanged)
    · exact shown.cell_setAll full writable _ stored visible

end Volume

/-! ## Loops of writes -/

namespace VolumeWriter

variable {v : Volume P T} {value : P → T}

theorem run_bind {B : Type} (x : VolumeWriter P T A) (f : A → VolumeWriter P T B)
    (v : Volume P T) :
    (x >>= f).run.run v =
      match x.run.run v with
      | (.ok a, w) => (f a).run.run w
      | (.error e, w) => (.error e, w) := by
  refine (run_bind_state x f v).trans ?_
  cases ran : x.run.run v with
  | mk result w =>
    rw [show x v = (result, w) from ran]
    cases result <;> rfl

/-- A loop each of whose rounds writes one position leaves these writes, one after the other. -/
theorem run_forM {body : P → VolumeWriter P T Unit} {ps : List P}
    (round : ∀ before p after, ps = before ++ p :: after →
      (body p).run.run (v.paint value before) =
        (.ok (), (v.paint value before).written p (value p))) :
    (ps.forM body).run.run v = (.ok (), v.paint value ps) := by
  suffices rest : ∀ before after, ps = before ++ after →
      (after.forM body).run.run (v.paint value before) = (.ok (), v.paint value ps) from
    rest [] ps rfl
  intro before after split
  induction after generalizing before with
  | nil => rw [split, List.append_nil]; rfl
  | cons p after ih =>
    have next := ih (before ++ [p]) (by rw [split, List.append_cons])
    rw [List.forM_eq_forM, List.forM_cons, run_bind, round before p after split,
      ← Volume.paint_append]
    exact next

/-- What can be read is read. -/
theorem run_ofExcept_bind (f : A → VolumeWriter P T Unit) {result : Except (OutOfBounds P) A}
    {a : A} (found : result = .ok a) (v : Volume P T) :
    (ofExcept result >>= f).run.run v = (f a).run.run v := by
  rw [found]
  rfl

/-- A read that fails ends the program. -/
theorem run_ofExcept_error (f : A → VolumeWriter P T Unit) {result : Except (OutOfBounds P) A}
    {e : OutOfBounds P} (failed : result = .error e) (v : Volume P T) :
    (ofExcept result >>= f).run.run v = (.error (.outOfBounds e), v) := by
  rw [failed]
  rfl

/-- A write inside of a chain of views succeeds, whatever was written before. -/
theorem run_put [LawfulCoord P] (chain : v.Chain) (writable : v.isWritable = true) (ps : List P)
    {p : P} (inside : Coord.within p v.low v.high = true) (c : T) :
    (put p c).run.run (v.paint value ps) = (.ok (), (v.paint value ps).written p c) := by
  obtain ⟨full, t, shown⟩ := chain.exists_shows
  obtain ⟨low, high, still, shown', -⟩ := shown.setAll full (ps.map fun p => (p, value p))
  have written := shown'.set_inside (still.trans writable) (by rwa [low, high]) c (p := p)
  rw [put_eq, Volume.written, put_eq, Volume.paint, written]

variable [WalkedCoord P] [Inhabited T]

open LawfulCoord WalkedCoord

/-- A loop through a box that writes something at each position leaves exactly these writes. -/
theorem run_positions {low high : P} (chain : v.Chain) (writable : v.isWritable = true)
    (value : P → T) (body : P → VolumeWriter P T Unit)
    (part : ∀ p, Coord.within p low high = true → Coord.within p v.low v.high = true)
    (round : ∀ before p, p ∉ before → Coord.within p low high = true →
      (body p).run.run (v.paint value before) = (put p (value p)).run.run (v.paint value before)) :
    ∃ w, ((Coord.positions low high).forM body).run.run v = (.ok (), w) ∧
      v.Repainted w low high value := by
  refine ⟨_, run_forM fun before p after split => ?_, chain.repainted writable part value⟩
  have inside : Coord.within p low high = true :=
    mem_positions.mp (by rw [split]; exact List.mem_append_right _ List.mem_cons_self)
  have fresh : p ∉ before := by
    have nodup := (inOrder low high).nodup
    rw [split, List.nodup_middle, List.nodup_cons, List.mem_append] at nodup
    exact fun mem => nodup.1 (.inl mem)
  rw [round before p fresh inside]
  exact run_put chain writable before (part p inside) (value p)

theorem run_fill (chain : v.Chain) (writable : v.isWritable = true) (f : P → T) :
    ∃ w, (fill f).run.run v = (.ok (), w) ∧ v.Repainted w v.low v.high f :=
  run_positions chain writable f _ (fun _ => id) fun _ _ _ _ => rfl

theorem run_mapInPlace (chain : v.Chain) (writable : v.isWritable = true) (f : P → T → T) :
    ∃ w, (mapInPlace f).run.run v = (.ok (), w) ∧
      v.Repainted w v.low v.high fun p => f p (v.cellAt p) := by
  refine run_positions chain writable _ _ (fun _ => id) fun before p fresh inside => ?_
  have unchanged := chain.get_paint writable (fun p => f p (v.cellAt p)) before inside
  rw [if_neg fresh, chain.get_eq inside] at unchanged
  exact run_ofExcept_bind _ unchanged _

end VolumeWriter

/-! ## Checks before work -/

namespace Volume

variable [WalkedCoord P]

/-- Checking the corners is checking every position. -/
theorem covered_eq {v : Volume P S} (box : Coord.within v.low v.low v.high = true) (low high : P) :
    (v.covered low high = .ok () ∧
      ∀ p, Coord.within p v.low v.high = true → Coord.within p low high = true) ∨
    (∃ e, v.covered low high = .error e) ∧
      ¬ ∀ p, Coord.within p v.low v.high = true → Coord.within p low high = true := by
  have corner : Coord.within v.high v.low v.high = true := WalkedCoord.high_within box
  unfold covered
  by_cases first : Coord.within v.low low high = true
  · by_cases last : Coord.within v.high low high = true
    · refine .inl ⟨?_, fun p => WalkedCoord.within_of_corners first last⟩
      simp [check, first, last, bind, Except.bind]
    · refine .inr ⟨⟨⟨v.high, low, high⟩, ?_⟩, fun all => last (all _ corner)⟩
      simp [check, first, last, bind, Except.bind]
  · refine .inr ⟨⟨⟨v.low, low, high⟩, ?_⟩, fun all => first (all _ box)⟩
    simp [check, first, bind, Except.bind]

end Volume

namespace VolumeWriter

variable [WalkedCoord P] [Inhabited S] [Inhabited T] [Inhabited U] {src : Volume P S}
  {other : Volume P U} {dest : Volume P T}

theorem run_mapFrom (readable : src.Chain) (chain : dest.Chain) (writable : dest.isWritable = true)
    (f : P → S → T) :
    (src.Within dest → ∃ w, (mapFrom src f).run.run dest = (.ok (), w) ∧
      dest.Repainted w src.low src.high fun p => f p (src.cellAt p)) ∧
    (¬ src.Within dest → ∃ e, (mapFrom src f).run.run dest = (.error (.outOfBounds e), dest)) := by
  obtain ⟨covered, part⟩ | ⟨⟨e, covered⟩, sticksOut⟩ :=
    Volume.covered_eq readable.box dest.low dest.high
  · refine ⟨fun _ => ?_, fun no => absurd part no⟩
    have loop := run_positions chain writable (fun p => f p (src.cellAt p))
      (fun p => do put p (f p (← ofExcept (src.get p)))) part
      fun _ p _ inside => run_ofExcept_bind _ (readable.get_eq inside) _
    obtain ⟨w, ran, repainted⟩ := loop
    exact ⟨w, (run_ofExcept_bind _ covered dest).trans ran, repainted⟩
  · exact ⟨fun part => absurd part sticksOut, fun _ => ⟨e, run_ofExcept_error _ covered dest⟩⟩

theorem run_mergeFrom (readable : src.Chain) (readable' : other.Chain) (chain : dest.Chain)
    (writable : dest.isWritable = true) (f : P → S → U → T) :
    (src.Within other ∧ src.Within dest → ∃ w,
      (mergeFrom src other f).run.run dest = (.ok (), w) ∧
      dest.Repainted w src.low src.high fun p => f p (src.cellAt p) (other.cellAt p)) ∧
    (¬ (src.Within other ∧ src.Within dest) →
      ∃ e, (mergeFrom src other f).run.run dest = (.error (.outOfBounds e), dest)) := by
  obtain ⟨covered', part'⟩ | ⟨⟨e, covered'⟩, sticksOut⟩ :=
    Volume.covered_eq readable.box other.low other.high
  · have first := run_ofExcept_bind (fun _ => do
      let dest ← get
      ofExcept (src.covered dest.low dest.high)
      src.positions.forM fun p => do
        let cell ← ofExcept (src.get p)
        put p (f p cell (← ofExcept (other.get p)))) covered' dest
    obtain ⟨covered, part⟩ | ⟨⟨e, covered⟩, sticksOut⟩ :=
      Volume.covered_eq readable.box dest.low dest.high
    · refine ⟨fun _ => ?_, fun no => absurd ⟨part', part⟩ no⟩
      have loop := run_positions chain writable
        (fun p => f p (src.cellAt p) (other.cellAt p))
        (fun p => do
          let cell ← ofExcept (src.get p)
          put p (f p cell (← ofExcept (other.get p)))) part
        fun _ p _ inside => (run_ofExcept_bind _ (readable.get_eq inside) _).trans
          (run_ofExcept_bind _ (readable'.get_eq (part' p inside)) _)
      obtain ⟨w, ran, repainted⟩ := loop
      exact ⟨w, first.trans ((run_ofExcept_bind _ covered dest).trans ran), repainted⟩
    · exact ⟨fun part => absurd part.2 sticksOut,
        fun _ => ⟨e, first.trans (run_ofExcept_error _ covered dest)⟩⟩
  · exact ⟨fun part => absurd part.1 sticksOut, fun _ => ⟨e, run_ofExcept_error _ covered' dest⟩⟩

end VolumeWriter

/-! ## Reading -/

namespace Volume

variable [WalkedCoord P] [Inhabited T] {v : Volume P T}

theorem Chain.reduce_eq (chain : v.Chain) (init : A) (f : A → P → T → A) :
    v.reduce init f = .ok (v.positions.foldl (fun acc p => f acc p (v.cellAt p)) init) := by
  have visited : ∀ p ∈ v.positions, Coord.within p v.low v.high = true := fun p =>
    WalkedCoord.mem_positions.mp
  unfold reduce
  revert visited
  generalize v.positions = ps
  intro visited
  induction ps generalizing init with
  | nil => rfl
  | cons p ps ih =>
    rw [List.forall_mem_cons] at visited
    rw [List.foldlM_cons, chain.get_eq visited.1]
    exact ih (f init p (v.cellAt p)) visited.2

theorem Chain.iterate_eq (chain : v.Chain) :
    v.iterate = .ok (v.positions.map fun p => (p, v.cellAt p)) := by
  have read : ∀ p ∈ v.positions,
      (do return (p, ← v.get p) : Except (OutOfBounds P) (P × T)) = .ok (p, v.cellAt p) :=
    fun p mem => by rw [chain.get_eq (WalkedCoord.mem_positions.mp mem)]; rfl
  rw [iterate, mapM_congr_of_mem read]
  exact List.mapM_pure

end Volume

/-- What the workers do with every chain of views: `src` and `other` are read, `dest` is written. -/
structure BulkLaws (P : Type) [Coord P] : Prop where
  reduce {T A : Type} [Inhabited T] {src : Volume P T} (chain : src.Chain) (init : A)
    (f : A → P → T → A) :
    src.reduce init f = .ok (src.positions.foldl (fun acc p => f acc p (src.cellAt p)) init)
  iterate {T : Type} [Inhabited T] {src : Volume P T} (chain : src.Chain) :
    src.iterate = .ok (src.positions.map fun p => (p, src.cellAt p))
  /-- Every position of a volume is visited once, in the order of storage. -/
  positions {T : Type} (src : Volume P T) :
    src.positions = Coord.positions src.low src.high ∧ Coord.InOrder src.low src.high
  readable {T : Type} [Inhabited T] {src : Volume P T} (chain : src.Chain) {p : P}
    (inside : Coord.within p src.low src.high = true) : src.get p = .ok (src.cellAt p)
  fill {T : Type} [Inhabited T] {dest : Volume P T} (chain : dest.Chain)
    (writable : dest.isWritable = true) (f : P → T) :
    ∃ w, (VolumeWriter.fill f).run.run dest = (.ok (), w) ∧
      dest.Repainted w dest.low dest.high f
  map_in_place {T : Type} [Inhabited T] {dest : Volume P T} (chain : dest.Chain)
    (writable : dest.isWritable = true) (f : P → T → T) :
    ∃ w, (VolumeWriter.mapInPlace f).run.run dest = (.ok (), w) ∧
      dest.Repainted w dest.low dest.high fun p => f p (dest.cellAt p)
  map {S T : Type} [Inhabited S] [Inhabited T] {src : Volume P S} {dest : Volume P T}
    (readable : src.Chain) (chain : dest.Chain) (writable : dest.isWritable = true)
    (f : P → S → T) :
    (src.Within dest → ∃ w, (VolumeWriter.mapFrom src f).run.run dest = (.ok (), w) ∧
      dest.Repainted w src.low src.high fun p => f p (src.cellAt p)) ∧
    (¬ src.Within dest → ∃ e,
      (VolumeWriter.mapFrom src f).run.run dest = (.error (.outOfBounds e), dest))
  merge {S T U : Type} [Inhabited S] [Inhabited T] [Inhabited U] {src : Volume P S}
    {other : Volume P U} {dest : Volume P T} (readable : src.Chain) (readable' : other.Chain)
    (chain : dest.Chain) (writable : dest.isWritable = true) (f : P → S → U → T) :
    (src.Within other ∧ src.Within dest → ∃ w,
      (VolumeWriter.mergeFrom src other f).run.run dest = (.ok (), w) ∧
      dest.Repainted w src.low src.high fun p => f p (src.cellAt p) (other.cellAt p)) ∧
    (¬ (src.Within other ∧ src.Within dest) → ∃ e,
      (VolumeWriter.mergeFrom src other f).run.run dest = (.error (.outOfBounds e), dest))

theorem bulkLaws [WalkedCoord P] : BulkLaws P where
  reduce chain := chain.reduce_eq
  iterate chain := chain.iterate_eq
  positions src := ⟨rfl, inOrder src.low src.high⟩
  readable chain := chain.get_eq
  fill := VolumeWriter.run_fill
  map_in_place := VolumeWriter.run_mapInPlace
  map := VolumeWriter.run_mapFrom
  merge := VolumeWriter.run_mergeFrom

/-- **Work on all cells is done as a whole or not at all, and touches nothing else.** A worker that
writes the cells of other volumes fails exactly if a position of the first is missing in one of the
others, and then the destination is as it was; one that changes a volume in place never fails. All
that is written lies in the box that was worked on, each position of it once. -/
theorem bulk_work_is_atomic : BulkLaws (Vec3 Int) ∧ BulkLaws (Vec2 Int) := ⟨bulkLaws, bulkLaws⟩

/-- Half of an area becomes a desert, and the other half keeps its sea. -/
theorem half_becomes_desert :
    let base : ArrayVolume (Vec2 Int) BiomeType :=
      ⟨⟨0, 0⟩, ⟨1, 1⟩, Array.replicate 4 .ocean⟩
    ∃ half w, (Volume.array base).nestView ⟨0, 1⟩ ⟨1, 1⟩ = .ok half ∧ half.Chain ∧
      half.isWritable = true ∧
      (VolumeWriter.fill fun _ => .desert).run.run half = (.ok (), w) ∧
      w.get ⟨1, 1⟩ = .ok .desert ∧ w.storage.cell ⟨1, 0⟩ = .ocean := by
  intro base
  have full : base.Full := ⟨by decide, by decide⟩
  have made : (Volume.array base).nestView ⟨0, 1⟩ ⟨1, 1⟩ =
      .ok (.downsize (.array base) ⟨0, 1⟩ ⟨1, 1⟩) := rfl
  have chain := Volume.Chain.nestView (.array full) made
  obtain ⟨w, ran, repainted⟩ := bulk_work_is_atomic.2.fill chain rfl fun _ => BiomeType.desert
  refine ⟨_, w, made, chain, rfl, ran, repainted.inside (by decide), ?_⟩
  refine repainted.stored (by decide) fun p inside => ?_
  have inside : Coord.within p (⟨0, 1⟩ : Vec2 Int) ⟨1, 1⟩ = true := inside
  rw [Volume.locate_downsize, if_pos inside, Volume.locate_array]
  split
  · rintro ⟨⟩
    exact absurd inside (by decide)
  · simp

end VoxelServer
