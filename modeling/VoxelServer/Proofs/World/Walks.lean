import Mathlib.Data.List.Nodup
import Mathlib.Data.Set.Function
import VoxelServer.Proofs.World.Rigid

/-!
# Walks through boxes

A position has a place in its box, computed from the sizes of the box, and a successor, found by
carrying from one axis to the next. Both follow one order, that of storage:

* `WalkedCoord`: a step goes to the next place, and the list of all positions is in this order;
* `Cells.Yields`: the positions that are left of a walk;
* `Coord.InOrder`: a walk through a box visits every position once, the one at place `k` as number
  `k`, and then stops; `inOrder` says so of every box.
-/

namespace VoxelServer

/-- The laws of boxes and of the order of storage. -/
class WalkedCoord (P : Type) [Coord P] : Prop extends LawfulCoord P where
  high_within {low high : P} : Coord.within low low high = true →
    Coord.within high low high = true
  /-- A box lies in another one if both of its corners do. -/
  within_of_corners {low high low' high' p : P} : Coord.within low' low high = true →
    Coord.within high' low high = true → Coord.within p low' high' = true →
      Coord.within p low high = true
  /-- Boxes that hold each other's corners are the same. -/
  box_ext {low high low' high' : P} : Coord.within low low' high' = true →
    Coord.within high low' high' = true → Coord.within low' low high = true →
      Coord.within high' low high = true → low = low' ∧ high = high'
  /-- A box with a position in it starts there. -/
  box_of_within {low high p : P} : Coord.within p low high = true →
    Coord.within low low high = true
  index_low {low high : P} : Coord.within low low high = true → Coord.index low high low = 0
  /-- A step leads to the next place, -/
  step_some {low high p q : P} : Coord.within p low high = true →
    Coord.step? low high p = some q →
      Coord.within q low high = true ∧ Coord.index low high q = Coord.index low high p + 1
  /-- and there is one from every place but the last. -/
  step_none {low high p : P} : Coord.within p low high = true → Coord.step? low high p = none →
    Coord.index low high p + 1 = Coord.count low high
  mem_positions {low high p : P} :
    p ∈ Coord.positions low high ↔ Coord.within p low high = true
  map_index_positions (low high : P) :
    (Coord.positions low high).map (Coord.index low high) = List.range (Coord.count low high)

/-! ## Rows -/

theorem mem_interval {low high x : Int} : x ∈ interval low high ↔ low ≤ x ∧ x ≤ high := by
  simp only [interval, List.mem_map, List.mem_range]
  constructor
  · rintro ⟨k, hk, rfl⟩
    omega
  · intro h
    exact ⟨(x - low).toNat, by omega, by omega⟩

/-- Rows of equal width, one after the other, number the places of all of them. -/
theorem rows_eq_range (height width : Nat) :
    ((List.range height).flatMap fun i => (List.range width).map fun j => i * width + j) =
      List.range (height * width) := by
  induction height with
  | zero => simp
  | succ height ih =>
    rw [List.range_succ, List.flatMap_append, ih, Nat.succ_mul, List.range_add]
    simp

theorem layers_eq_range (depth height width : Nat) :
    ((List.range depth).flatMap fun i => (List.range height).flatMap fun j =>
      (List.range width).map fun k => (i * height + j) * width + k) =
      List.range (depth * height * width) := by
  rw [← rows_eq_range (depth * height), ← rows_eq_range depth, List.flatMap_assoc]
  simp only [List.flatMap_map]

/-- What an interval numbers, it numbers from zero. -/
theorem map_interval {α : Type} (low high : Int) (f : Nat → α) :
    (interval low high).map (fun x => f (x - low).toNat) =
      (List.range (high - low + 1).toNat).map f := by
  simp [interval, Function.comp_def]

theorem flatMap_interval {α : Type} (low high : Int) (f : Nat → List α) :
    (interval low high).flatMap (fun x => f (x - low).toNat) =
      (List.range (high - low + 1).toNat).flatMap f := by
  simp [interval, List.flatMap_map]

/-- The last place of a row is followed by the next row. -/
theorem row_end {width : Nat} (row : Nat) (wide : 0 < width) :
    row * width + (width - 1) + 1 = (row + 1) * width := by
  rw [Nat.succ_mul]
  omega

instance : WalkedCoord (Vec2 Int) where
  box_ext h₁ h₂ h₃ h₄ := by
    rw [Vec2.within_iff] at h₁ h₂ h₃ h₄
    simp only [Vec2.eq_iff]
    omega
  high_within h := by
    rw [Vec2.within_iff] at h ⊢
    omega
  within_of_corners h h' hp := by
    rw [Vec2.within_iff] at h h' hp ⊢
    omega
  box_of_within h := by
    rw [Vec2.within_iff] at h ⊢
    omega
  index_low h := by simp [Coord.index]
  step_some {low high p q} h step := by
    rw [Vec2.within_iff] at h ⊢
    simp only [Coord.step?] at step
    simp only [Coord.index]
    have first : (low.x - low.x).toNat = 0 := by omega
    split at step
    · obtain rfl := Option.some.inj step
      have next : (p.x + 1 - low.x).toNat = (p.x - low.x).toNat + 1 := by omega
      exact ⟨by dsimp only; omega, by rw [next, Nat.add_assoc]⟩
    · have last : (p.x - low.x).toNat = (high.x - low.x + 1).toNat - 1 := by omega
      split at step
      · obtain rfl := Option.some.inj step
        have next : (p.z + 1 - low.z).toNat = (p.z - low.z).toNat + 1 := by omega
        exact ⟨by dsimp only; omega, by rw [next, first, last, row_end _ (by omega), Nat.add_zero]⟩
      · cases step
  step_none {low high p} h step := by
    rw [Vec2.within_iff] at h
    simp only [Coord.step?] at step
    simp only [Coord.index, Coord.count]
    split at step
    · cases step
    split at step
    · cases step
    have last : (p.x - low.x).toNat = (high.x - low.x + 1).toNat - 1 := by omega
    have rows : (p.z - low.z).toNat + 1 = (high.z - low.z + 1).toNat := by omega
    rw [last, row_end _ (by omega), rows, Nat.mul_comm]
  mem_positions {low high p} := by
    obtain ⟨x, z⟩ := p
    simp only [Vec2.within_iff, Coord.positions, List.mem_flatMap, List.mem_map, mem_interval,
      Vec2.mk.injEq]
    grind
  map_index_positions low high := by
    have row (z : Int) := map_interval low.x high.x fun j =>
      (z - low.z).toNat * (high.x - low.x + 1).toNat + j
    simp only [Coord.positions, List.map_flatMap, List.map_map, Function.comp_def, Coord.index, row]
    rw [flatMap_interval low.z high.z fun i => (List.range (high.x - low.x + 1).toNat).map
      fun j => i * (high.x - low.x + 1).toNat + j, rows_eq_range]
    exact congrArg List.range (Nat.mul_comm _ _)

instance : WalkedCoord (Vec3 Int) where
  box_ext h₁ h₂ h₃ h₄ := by
    rw [Vec3.within_iff] at h₁ h₂ h₃ h₄
    simp only [Vec3.eq_iff]
    omega
  high_within h := by
    rw [Vec3.within_iff] at h ⊢
    omega
  within_of_corners h h' hp := by
    rw [Vec3.within_iff] at h h' hp ⊢
    omega
  box_of_within h := by
    rw [Vec3.within_iff] at h ⊢
    omega
  index_low h := by simp [Coord.index]
  step_some {low high p q} h step := by
    rw [Vec3.within_iff] at h ⊢
    simp only [Coord.step?] at step
    simp only [Coord.index]
    have first : (low.x - low.x).toNat = 0 := by omega
    have front : (low.z - low.z).toNat = 0 := by omega
    split at step
    · obtain rfl := Option.some.inj step
      have next : (p.x + 1 - low.x).toNat = (p.x - low.x).toNat + 1 := by omega
      exact ⟨by dsimp only; omega, by rw [next, Nat.add_assoc]⟩
    have last : (p.x - low.x).toNat = (high.x - low.x + 1).toNat - 1 := by omega
    split at step
    · obtain rfl := Option.some.inj step
      have next : (p.z + 1 - low.z).toNat = (p.z - low.z).toNat + 1 := by omega
      exact ⟨by dsimp only; omega, by
        rw [next, first, last, row_end _ (by omega), Nat.add_zero, Nat.add_assoc]⟩
    have back : (p.z - low.z).toNat = (high.z - low.z + 1).toNat - 1 := by omega
    split at step
    · obtain rfl := Option.some.inj step
      have next : (p.y + 1 - low.y).toNat = (p.y - low.y).toNat + 1 := by omega
      exact ⟨by dsimp only; omega, by
        rw [next, first, front, last, row_end _ (by omega), back, row_end _ (by omega),
          Nat.add_zero, Nat.add_zero]⟩
    · cases step
  step_none {low high p} h step := by
    rw [Vec3.within_iff] at h
    simp only [Coord.step?] at step
    simp only [Coord.index, Coord.count]
    split at step
    · cases step
    split at step
    · cases step
    split at step
    · cases step
    have last : (p.x - low.x).toNat = (high.x - low.x + 1).toNat - 1 := by omega
    have back : (p.z - low.z).toNat = (high.z - low.z + 1).toNat - 1 := by omega
    have layers : (p.y - low.y).toNat + 1 = (high.y - low.y + 1).toNat := by omega
    rw [last, row_end _ (by omega), back, row_end _ (by omega), layers]
    ring
  mem_positions {low high p} := by
    obtain ⟨x, y, z⟩ := p
    simp only [Vec3.within_iff, Coord.positions, List.mem_flatMap, List.mem_map, mem_interval,
      Vec3.mk.injEq]
    grind
  map_index_positions low high := by
    have row (y z : Int) := map_interval low.x high.x fun k =>
      ((y - low.y).toNat * (high.z - low.z + 1).toNat + (z - low.z).toNat) *
        (high.x - low.x + 1).toNat + k
    have layer (y : Int) := flatMap_interval low.z high.z fun j =>
      (List.range (high.x - low.x + 1).toNat).map fun k =>
        ((y - low.y).toNat * (high.z - low.z + 1).toNat + j) * (high.x - low.x + 1).toNat + k
    simp only [Coord.positions, List.map_flatMap, List.map_map, Function.comp_def, Coord.index, row,
      layer]
    rw [flatMap_interval low.y high.y fun i => (List.range (high.z - low.z + 1).toNat).flatMap
      fun j => (List.range (high.x - low.x + 1).toNat).map fun k =>
        (i * (high.z - low.z + 1).toNat + j) * (high.x - low.x + 1).toNat + k, layers_eq_range]
    exact congrArg List.range (by simp only [Coord.count]; ring)

/-! ## Walks -/

section

variable {P : Type} [Coord P]

/-- The positions that are left of a walk. -/
inductive Cells.Yields : Cells P → List P → Prop
  | done {c : Cells P} : c.advance? = none → Yields c []
  | next {c rest : Cells P} {p : P} {ps : List P} :
      c.advance? = some (p, rest) → Yields rest ps → Yields c (p :: ps)

variable [WalkedCoord P] {low high : P}

open LawfulCoord WalkedCoord

/-- Positions of a box that have the same places are the same. -/
theorem eq_of_map_index {ps qs : List P} (hp : ∀ p ∈ ps, Coord.within p low high = true)
    (hq : ∀ q ∈ qs, Coord.within q low high = true)
    (same : ps.map (Coord.index low high) = qs.map (Coord.index low high)) : ps = qs := by
  induction ps generalizing qs with
  | nil => exact (List.map_eq_nil_iff.mp same.symm).symm
  | cons p ps ih =>
    obtain ⟨q, qs, rfl, here, later⟩ := List.map_eq_cons_iff.mp same.symm
    rw [List.forall_mem_cons] at hp hq
    rw [index_inj hp.1 hq.1 here.symm, ih hp.2 hq.2 later.symm]

/-- From a position of the box a walk visits its place and all that follow. -/
theorem Cells.exists_yields {p : P} (h : Coord.within p low high = true) :
    ∃ ps, (⟨some p, low, high⟩ : Cells P).Yields ps ∧
      (∀ q ∈ ps, Coord.within q low high = true) ∧
      ps.map (Coord.index low high) = List.range' (Coord.index low high p)
        (Coord.count low high - Coord.index low high p) := by
  generalize left : Coord.count low high - Coord.index low high p = n
  induction n generalizing p with
  | zero => exact absurd (index_lt h) (by omega)
  | succ n ih =>
    cases step : Coord.step? low high p with
    | none =>
      have last := step_none h step
      obtain rfl : n = 0 := by omega
      refine ⟨[p], .next rfl (.done (congrArg (Option.map _) step)), ?_, rfl⟩
      simpa using h
    | some q =>
      obtain ⟨inside, next⟩ := step_some h step
      obtain ⟨ps, rest, within, places⟩ := ih inside (by omega)
      have stepped : (⟨some p, low, high⟩ : Cells P).advance? = some (p, ⟨some q, low, high⟩) := by
        simp [advance?, step]
      refine ⟨p :: ps, .next stepped rest, ?_, ?_⟩
      · exact List.forall_mem_cons.mpr ⟨h, within⟩
      · rw [List.map_cons, places, next, List.range'_succ]

/-- A walk through a box visits the positions of the list. -/
theorem Cells.new_yields (low high : P) :
    (Cells.new low high).Yields (Coord.positions low high) := by
  by_cases box : Coord.within low low high = true
  · obtain ⟨ps, yields, within, places⟩ := Cells.exists_yields box
    rw [index_low box, Nat.sub_zero, ← List.range_eq_range', ← map_index_positions] at places
    rw [← eq_of_map_index within (fun _ => mem_positions.mp) places]
    simpa [Cells.new, box] using yields
  · have none : Coord.positions low high = [] := List.eq_nil_iff_forall_not_mem.mpr
      fun p mem => box (box_of_within (mem_positions.mp mem))
    rw [none]
    exact .done (by simp [Cells.new, advance?, box])

/-- A walk through a box, the places of its positions and the room for them go together. -/
structure Coord.InOrder (low high : P) : Prop where
  walk : (Cells.new low high).Yields (Coord.positions low high)
  length : (Coord.positions low high).length = Coord.count low high
  nodup : (Coord.positions low high).Nodup
  mem {p : P} : p ∈ Coord.positions low high ↔ Coord.within p low high = true
  place {k : Nat} {p : P} : (Coord.positions low high)[k]? = some p → Coord.index low high p = k
  bijective : Set.BijOn (Coord.index low high) {p | Coord.within p low high = true}
    (Set.Iio (Coord.count low high))

theorem getElem?_place {k : Nat} {p : P} (h : (Coord.positions low high)[k]? = some p) :
    Coord.index low high p = k := by
  have place := congrArg (·[k]?) (map_index_positions low high)
  simp only [List.getElem?_map, h, Option.map_some] at place
  obtain ⟨_, here⟩ := List.getElem?_eq_some_iff.mp place.symm
  rw [← here, List.getElem_range]

/-- The position at a place. -/
theorem getElem?_index {p : P} (h : Coord.within p low high = true) :
    (Coord.positions low high)[Coord.index low high p]? = some p := by
  obtain ⟨k, here⟩ := List.getElem?_of_mem (mem_positions.mpr h)
  rw [getElem?_place here, here]

theorem inOrder (low high : P) : Coord.InOrder low high where
  walk := Cells.new_yields low high
  length := length_positions low high
  nodup := List.Nodup.of_map _ (map_index_positions low high ▸ List.nodup_range)
  mem := mem_positions
  place := getElem?_place
  bijective := by
    refine ⟨fun p => index_lt, fun p hp q hq => index_inj hp hq, fun k hk => ?_⟩
    rw [Set.mem_Iio, ← length_positions] at hk
    exact ⟨(Coord.positions low high)[k], mem_positions.mp (List.getElem_mem hk),
      getElem?_place (List.getElem?_eq_getElem hk)⟩

end

end VoxelServer
