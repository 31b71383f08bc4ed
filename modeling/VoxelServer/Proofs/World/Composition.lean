import Mathlib.Algebra.BigOperators.Fin
import Mathlib.Algebra.Order.BigOperators.Group.Finset
import Mathlib.Dynamics.PeriodicPts.Defs
import Mathlib.Tactic.FinCases
import VoxelServer.Proofs.World.Rigid

/-!
# Composition of rigid maps

Rigid maps form a group, and moving a position by a composite is moving it by one map after the
other. Nothing is lost in the positions: maps that move all of them alike are the same matrix and
the same offset. So every law is checked on positions, where it is plain, and holds of the maps as
values.

* `SignedPermutation`: matrices that permute the coordinates and change some signs; orthogonal
  integer matrices are of this kind (`Orientation3.signedPermutation`);
* `FaithfulCoord`: rigid maps are told apart by what they do to positions;
* `GroupLaws`, `TurnLaws`: the laws of composition, and those of quarter turns;
* `Transform2.upright`: a map of the map as a map of space that keeps the height. `Planar` are the
  expressions that can be read in both ways, and `Planar.inSpace_eq` compares the two.
-/

namespace VoxelServer

/-! ## Signed permutations -/

section

variable {ι : Type}

/-- Whether a matrix holds one 1 or -1 in each row, each in a column of its own, and zeros. -/
def SignedPermutation [DecidableEq ι] (entry : ι → ι → Int) : Prop :=
  ∃ (place : Equiv.Perm ι) (sign : ι → Int), (∀ i, sign i = 1 ∨ sign i = -1) ∧
    ∀ i j, entry i j = if j = place i then sign i else 0

variable [Fintype ι] [DecidableEq ι]

/-- An integer vector of length one has a single coordinate that is not zero. -/
theorem exists_unit_coordinate {u : ι → Int} (unit : ∑ j, u j * u j = 1) :
    ∃ i, (u i = 1 ∨ u i = -1) ∧ ∀ j, j ≠ i → u j = 0 := by
  obtain ⟨i, -, square⟩ := Finset.exists_ne_zero_of_sum_ne_zero (unit.trans_ne one_ne_zero)
  have nonzero : u i ≠ 0 := left_ne_zero_of_mul square
  rw [← Finset.add_sum_erase _ _ (Finset.mem_univ i)] at unit
  have squares : ∀ j ∈ Finset.univ.erase i, 0 ≤ u j * u j := fun j _ => mul_self_nonneg (u j)
  have others (none : ∑ j ∈ Finset.univ.erase i, u j * u j = 0) (j : ι) (other : j ≠ i) :
      u j = 0 :=
    mul_self_eq_zero.mp ((Finset.sum_eq_zero_iff_of_nonneg squares).mp none j (by simp [other]))
  obtain ⟨one, none⟩ | ⟨one, none⟩ | ⟨zero, -⟩ := unit_cases (Finset.sum_nonneg squares) unit
  · exact ⟨i, .inl one, others none⟩
  · exact ⟨i, .inr one, others none⟩
  · exact absurd zero nonzero

/-- Two rows that have their only coordinate in one place are not orthogonal. -/
theorem signedPermutation_of_orthonormal {entry : ι → ι → Int}
    (rows : ∀ i k, ∑ j, entry i j * entry k j = if i = k then 1 else 0) :
    SignedPermutation entry := by
  have unit (i : ι) : ∑ j, entry i j * entry i j = 1 := by simpa using rows i i
  choose place sign zero using fun i => exists_unit_coordinate (unit i)
  have injective : Function.Injective place := by
    intro i k same
    by_contra other
    have product : entry i (place i) * entry k (place i) = 0 := by
      rw [← (rows i k).trans (if_neg other), Finset.sum_eq_single (place i)]
      · intro j _ elsewhere
        rw [zero i j elsewhere, zero_mul]
      · simp
    have signs := sign k
    rw [← same] at signs
    obtain one | one := sign i <;> obtain one' | one' := signs <;> simp [one, one'] at product
  refine ⟨Equiv.ofBijective place (Finite.injective_iff_bijective.mp injective),
    fun i => entry i (place i), sign, fun i j => ?_⟩
  by_cases here : j = place i
  · simp [here]
  · simp [here, zero i j here]

end

def Vec2.coordinate {α : Type} (v : Vec2 α) : Fin 2 → α := ![v.x, v.z]

def Vec3.coordinate {α : Type} (v : Vec3 α) : Fin 3 → α := ![v.x, v.y, v.z]

def Matrix2.entry (m : Matrix2) (i j : Fin 2) : Int := (m.coordinate i).coordinate j

def Matrix3.entry (m : Matrix3) (i j : Fin 3) : Int := (m.coordinate i).coordinate j

theorem Matrix2.sum_entry (m : Matrix2) (i k : Fin 2) :
    ∑ j, m.entry i j * m.entry k j = (m.mul m.transpose).entry k i := by
  rw [Fin.sum_univ_two]
  fin_cases i <;> fin_cases k <;> rfl

theorem Matrix3.sum_entry (m : Matrix3) (i k : Fin 3) :
    ∑ j, m.entry i j * m.entry k j = (m.mul m.transpose).entry k i := by
  rw [Fin.sum_univ_three]
  fin_cases i <;> fin_cases k <;> rfl

theorem Orientation2.signedPermutation (o : Orientation2) : SignedPermutation o.rows.entry := by
  refine signedPermutation_of_orthonormal fun i k => ?_
  rw [Matrix2.sum_entry, o.mul_transpose]
  fin_cases i <;> fin_cases k <;> rfl

theorem Orientation3.signedPermutation (o : Orientation3) : SignedPermutation o.rows.entry := by
  refine signedPermutation_of_orthonormal fun i k => ?_
  rw [Matrix3.sum_entry, o.mul_transpose]
  fin_cases i <;> fin_cases k <;> rfl

/-! ## The group -/

/-- Rigid maps that move every position alike are the same. -/
class FaithfulCoord (P : Type) [Coord P] : Prop extends LawfulCoord P where
  ext_apply {s t : Coord.Transform P} : (∀ p, Coord.apply s p = Coord.apply t p) → s = t

/-- The images of the origin and of the unit vectors are the offset and the columns. -/
theorem Transform2.ext_apply {s t : Transform2} (same : ∀ p, s.apply p = t.apply p) : s = t := by
  obtain ⟨⟨⟨⟨a, b⟩, ⟨c, d⟩⟩, _, _⟩, ⟨u, v⟩⟩ := s
  obtain ⟨⟨⟨⟨a', b'⟩, ⟨c', d'⟩⟩, _, _⟩, ⟨u', v'⟩⟩ := t
  have origin := same ⟨0, 0⟩
  have first := same ⟨1, 0⟩
  have second := same ⟨0, 1⟩
  simp only [apply, Matrix2.apply, Matrix2.dot, Vec2.eq_iff, Vec2.add_x, Vec2.add_z]
    at origin first second
  simp only [mk.injEq, Orientation2.mk.injEq, Vec2.mk.injEq]
  omega

theorem Transform3.ext_apply {s t : Transform3} (same : ∀ p, s.apply p = t.apply p) : s = t := by
  obtain ⟨⟨⟨⟨a, b, c⟩, ⟨d, e, f⟩, ⟨g, h, i⟩⟩, _, _⟩, ⟨u, v, w⟩⟩ := s
  obtain ⟨⟨⟨⟨a', b', c'⟩, ⟨d', e', f'⟩, ⟨g', h', i'⟩⟩, _, _⟩, ⟨u', v', w'⟩⟩ := t
  have origin := same ⟨0, 0, 0⟩
  have first := same ⟨1, 0, 0⟩
  have second := same ⟨0, 1, 0⟩
  have third := same ⟨0, 0, 1⟩
  simp only [apply, Matrix3.apply, Matrix3.dot, Vec3.eq_iff, Vec3.add_x, Vec3.add_y, Vec3.add_z]
    at origin first second third
  simp only [mk.injEq, Orientation3.mk.injEq, Vec3.mk.injEq]
  omega

instance : FaithfulCoord (Vec2 Int) where
  ext_apply := Transform2.ext_apply

instance : FaithfulCoord (Vec3 Int) where
  ext_apply := Transform3.ext_apply

/-- The laws of a group of maps between positions, as equations of values. -/
structure GroupLaws (P : Type) [Coord P] : Prop where
  apply_andThen (s t : Coord.Transform P) (p : P) :
    Coord.apply (Coord.andThen s t) p = Coord.apply t (Coord.apply s p)
  assoc (s t u : Coord.Transform P) :
    Coord.andThen (Coord.andThen s t) u = Coord.andThen s (Coord.andThen t u)
  identity_andThen (t : Coord.Transform P) : Coord.andThen Coord.identity t = t
  andThen_identity (t : Coord.Transform P) : Coord.andThen t Coord.identity = t
  andThen_invert (t : Coord.Transform P) : Coord.andThen t (Coord.invert t) = Coord.identity
  invert_andThen (t : Coord.Transform P) : Coord.andThen (Coord.invert t) t = Coord.identity

/-- The laws of quarter turns that have a fixed axis. -/
structure TurnLaws (P : Type) [Coord P] (rotation : Int → Coord.Transform P)
    (rotationAround : Int → P → Coord.Transform P) : Prop where
  add (m n : Int) : Coord.andThen (rotation m) (rotation n) = rotation (m + n)
  fixed (n : Int) (center : P) : Coord.apply (rotationAround n center) center = center

section

variable {P : Type} [Coord P] [FaithfulCoord P]

open FaithfulCoord LawfulCoord

theorem groupLaws : GroupLaws P where
  apply_andThen := apply_andThen
  assoc s t u := ext_apply fun p => by simp only [apply_andThen]
  identity_andThen t := ext_apply fun p => by rw [apply_andThen, apply_identity]
  andThen_identity t := ext_apply fun p => by rw [apply_andThen, apply_identity]
  andThen_invert t := ext_apply fun p => by rw [apply_andThen, invert_apply, apply_identity]
  invert_andThen t := ext_apply fun p => by rw [apply_andThen, apply_invert, apply_identity]

/-- Turns about one axis add up, for four quarter turns are none. -/
theorem rotation_andThen {rotation : Int → Coord.Transform P} {turn : P → P}
    (turns : ∀ n p, Coord.apply (rotation n) p = turn^[(n % 4).toNat] p)
    (full : ∀ p, turn^[4] p = p) (m n : Int) :
    Coord.andThen (rotation m) (rotation n) = rotation (m + n) := by
  refine ext_apply fun p => ?_
  have periodic : Function.IsPeriodicPt turn 4 p := full p
  have sum : ((m + n) % 4).toNat = ((n % 4).toNat + (m % 4).toNat) % 4 := by omega
  calc Coord.apply (Coord.andThen (rotation m) (rotation n)) p
    _ = turn^[(n % 4).toNat] (turn^[(m % 4).toNat] p) := by rw [apply_andThen, turns, turns]
    _ = turn^[(n % 4).toNat + (m % 4).toNat] p := (Function.iterate_add_apply _ _ _ _).symm
    _ = turn^[((m + n) % 4).toNat] p := by rw [sum, periodic.iterate_mod_apply]
    _ = Coord.apply (rotation (m + n)) p := (turns _ _).symm

end

/-! ## Quarter turns -/

namespace Transform2

theorem apply_shift (offset p : Vec2 Int) : (shift offset).apply p = p + offset := by
  simp [apply, shift, Orientation2.one, Matrix2.apply, Matrix2.dot, Matrix2.one]

theorem apply_rotation (n : Int) (p : Vec2 Int) :
    (rotation n).apply p = Orientation2.quarterTurn.rows.apply^[(n % 4).toNat] p := by
  have power (k : Nat) :
      (Orientation2.quarterTurn.power k).rows.apply p =
        Orientation2.quarterTurn.rows.apply^[k] p := by
    induction k with
    | zero => simp [Orientation2.power, Orientation2.one, Matrix2.apply, Matrix2.dot, Matrix2.one]
    | succ k ih =>
      rw [Orientation2.power, Orientation2.mul, Matrix2.apply_mul, ih,
        Function.iterate_succ_apply']
  rw [← power]
  simp [apply, rotation, Vec2.eq_iff]

theorem turnLaws : TurnLaws (Vec2 Int) rotation rotationAround where
  add m n := by
    refine rotation_andThen (P := Vec2 Int) apply_rotation (fun p => ?_) m n
    simp [Matrix2.apply, Matrix2.dot, Orientation2.quarterTurn]
  fixed n center := by
    have still : (rotation n).apply ⟨0, 0⟩ = ⟨0, 0⟩ := by
      simp [apply, rotation, Matrix2.apply, Matrix2.dot, Vec2.eq_iff]
    have centered : center + -center = ⟨0, 0⟩ := by simp [Vec2.eq_iff]
    have back : (⟨0, 0⟩ : Vec2 Int) + center = center := by simp [Vec2.eq_iff]
    simp only [Coord.apply, rotationAround, apply_andThen, apply_shift, centered, still, back]

end Transform2

namespace Transform3

theorem apply_shift (offset p : Vec3 Int) : (shift offset).apply p = p + offset := by
  simp [apply, shift, Orientation3.one, Matrix3.apply, Matrix3.dot, Matrix3.one]

theorem apply_rotation (n : Int) (axis : Axis) (p : Vec3 Int) :
    (rotation n axis).apply p =
      (Orientation3.quarterTurn axis).rows.apply^[(n % 4).toNat] p := by
  have power (k : Nat) :
      ((Orientation3.quarterTurn axis).power k).rows.apply p =
        (Orientation3.quarterTurn axis).rows.apply^[k] p := by
    induction k with
    | zero => simp [Orientation3.power, Orientation3.one, Matrix3.apply, Matrix3.dot, Matrix3.one]
    | succ k ih =>
      rw [Orientation3.power, Orientation3.mul, Matrix3.apply_mul, ih,
        Function.iterate_succ_apply']
  rw [← power]
  simp [apply, rotation, Vec3.eq_iff]

theorem turnLaws (axis : Axis) :
    TurnLaws (Vec3 Int) (rotation · axis) (rotationAround · axis) where
  add m n := by
    refine rotation_andThen (P := Vec3 Int) (apply_rotation · axis) (fun p => ?_) m n
    cases axis <;> simp [Matrix3.apply, Matrix3.dot, Orientation3.quarterTurn]
  fixed n center := by
    have still : (rotation n axis).apply ⟨0, 0, 0⟩ = ⟨0, 0, 0⟩ := by
      simp [apply, rotation, Matrix3.apply, Matrix3.dot, Vec3.eq_iff]
    have centered : center + -center = ⟨0, 0, 0⟩ := by simp [Vec3.eq_iff]
    have back : (⟨0, 0, 0⟩ : Vec3 Int) + center = center := by simp [Vec3.eq_iff]
    simp only [Coord.apply, rotationAround, apply_andThen, apply_shift, centered, still, back]

end Transform3

/-! ## The map in space -/

/-- The place on the map below or above a position. -/
def Vec3.flat {α : Type} (v : Vec3 α) : Vec2 α := ⟨v.x, v.z⟩

def Vec2.atHeight {α : Type} (v : Vec2 α) (y : α) : Vec3 α := ⟨v.x, y, v.z⟩

@[simp] theorem Vec2.flat_atHeight {α : Type} (v : Vec2 α) (y : α) : (v.atHeight y).flat = v := rfl

theorem Vec2.y_atHeight {α : Type} (v : Vec2 α) (y : α) : (v.atHeight y).y = y := rfl

theorem Vec3.atHeight_flat {α : Type} (v : Vec3 α) : v.flat.atHeight v.y = v := rfl

@[simp] theorem Vec3.flat_add (v w : Vec3 Int) : (v + w).flat = v.flat + w.flat := rfl

@[simp] theorem Vec3.flat_neg (v : Vec3 Int) : (-v).flat = -v.flat := rfl

namespace Orientation2

/-- The same turn or reflection of space, about the vertical axis. -/
def upright (o : Orientation2) : Orientation3 where
  rows := ⟨⟨o.rows.x.x, 0, o.rows.x.z⟩, ⟨0, 1, 0⟩, ⟨o.rows.z.x, 0, o.rows.z.z⟩⟩
  mul_transpose := by
    have unit := o.mul_transpose
    simp_all [Matrix2.mul, Matrix2.transpose, Matrix2.apply, Matrix2.dot, Matrix2.one,
      Matrix3.mul, Matrix3.transpose, Matrix3.apply, Matrix3.dot, Matrix3.one]
  transpose_mul := by
    have unit := o.transpose_mul
    simp_all [Matrix2.mul, Matrix2.transpose, Matrix2.apply, Matrix2.dot, Matrix2.one,
      Matrix3.mul, Matrix3.transpose, Matrix3.apply, Matrix3.dot, Matrix3.one]

theorem upright_mul (o p : Orientation2) : (o.mul p).upright = o.upright.mul p.upright := by
  simp [upright, mul, Orientation3.mul, Matrix2.mul, Matrix2.transpose, Matrix2.apply, Matrix2.dot,
    Matrix3.mul, Matrix3.transpose, Matrix3.apply, Matrix3.dot]

theorem upright_power (o : Orientation2) (n : Nat) : (o.power n).upright = o.upright.power n := by
  induction n with
  | zero => rfl
  | succ n ih => rw [power, Orientation3.power, upright_mul, ih]

theorem apply_upright (o : Orientation2) (p : Vec3 Int) :
    o.upright.rows.apply p = (o.rows.apply p.flat).atHeight p.y := by
  simp [upright, Matrix3.apply, Matrix3.dot, Matrix2.apply, Matrix2.dot, Vec3.flat, Vec2.atHeight]

end Orientation2

namespace Transform2

/-- The same map at every height. -/
def upright (t : Transform2) : Transform3 := ⟨t.linear.upright, t.offset.atHeight 0⟩

theorem apply_upright (t : Transform2) (p : Vec3 Int) :
    t.upright.apply p = (t.apply p.flat).atHeight p.y := by
  simp [upright, apply, Transform3.apply, Orientation2.apply_upright, Vec3.eq_iff, Vec2.atHeight]

theorem upright_andThen (s t : Transform2) :
    (s.andThen t).upright = s.upright.andThen t.upright := by
  refine Transform3.ext_apply fun p => ?_
  simp [Transform3.apply_andThen, apply_upright, apply_andThen, Vec2.y_atHeight]

theorem upright_invert (t : Transform2) : t.invert.upright = t.upright.invert := by
  refine Transform3.ext_apply fun p => ?_
  have undone : t.upright.apply (t.invert.upright.apply p) = p := by
    simp [apply_upright, apply_invert, Vec2.y_atHeight, Vec3.atHeight_flat]
  calc t.invert.upright.apply p
    _ = t.upright.invert.apply (t.upright.apply (t.invert.upright.apply p)) :=
      (Transform3.invert_apply _ _).symm
    _ = t.upright.invert.apply p := by rw [undone]

theorem upright_rotation (n : Int) : (rotation n).upright = .rotation n .y :=
  congrArg (Transform3.mk · ⟨0, 0, 0⟩) (Orientation2.quarterTurn.upright_power _)

/-- The height of the center plays no part. -/
theorem upright_rotationAround (n : Int) (center : Vec2 Int) (height : Int) :
    (rotationAround n center).upright =
      .rotationAround n .y (center.atHeight height) := by
  refine Transform3.ext_apply fun p => ?_
  simp only [Transform3.rotationAround, rotationAround, Transform3.apply_andThen, apply_andThen,
    Transform3.apply_shift, apply_shift, ← upright_rotation, apply_upright, Vec3.flat_add,
    Vec3.flat_neg, Vec2.flat_atHeight]
  simp [Vec3.eq_iff, Vec2.atHeight]

end Transform2

/-- Expressions for turns about the vertical axis, reflections that keep the height and shifts
along the map. -/
inductive Planar
  | identity
  | shift (offset : Vec2 Int)
  | rotation (quarterTurns : Int)
  | rotationAround (quarterTurns : Int) (center : Vec2 Int) (height : Int)
  | reflectionX
  | reflectionZ
  | andThen (first second : Planar)
  | invert (undone : Planar)

namespace Planar

/-- An expression as a map of space. -/
def inSpace : Planar → Transform3
  | identity => .identity
  | shift offset => .shift (offset.atHeight 0)
  | rotation n => .rotation n .y
  | rotationAround n center height => .rotationAround n .y (center.atHeight height)
  | reflectionX => .reflection .x
  | reflectionZ => .reflection .z
  | andThen s t => s.inSpace.andThen t.inSpace
  | invert t => t.inSpace.invert

/-- The same expression as a map of the map. -/
def onMap : Planar → Transform2
  | identity => .identity
  | shift offset => .shift offset
  | rotation n => .rotation n
  | rotationAround n center _ => .rotationAround n center
  | reflectionX => .reflectionX
  | reflectionZ => .reflectionZ
  | andThen s t => s.onMap.andThen t.onMap
  | invert t => t.onMap.invert

theorem inSpace_eq (e : Planar) : e.inSpace = e.onMap.upright := by
  induction e with
  | identity => rfl
  | shift offset => rfl
  | rotation n => exact (Transform2.upright_rotation n).symm
  | rotationAround n center height =>
    exact (Transform2.upright_rotationAround n center height).symm
  | reflectionX => rfl
  | reflectionZ => rfl
  | andThen s t ihs iht => rw [inSpace, onMap, Transform2.upright_andThen, ihs, iht]
  | invert t ih => rw [inSpace, onMap, Transform2.upright_invert, ih]

/-- Leaving out the height commutes with moving, and the height stays. -/
theorem flat_apply_inSpace (e : Planar) (p : Vec3 Int) :
    (e.inSpace.apply p).flat = e.onMap.apply p.flat ∧ (e.inSpace.apply p).y = p.y := by
  rw [inSpace_eq, Transform2.apply_upright]
  exact ⟨rfl, rfl⟩

end Planar

/-- **Rigid maps are a group that acts on positions**, in space and on the map alike: their matrices
are permutations with signs, composites move a position by one map after the other, composition is
associative, the identity is its unit and `invert` its inverse. Turns about one axis add up and a
turn about a center leaves the center where it is. A map of space made of turns about the vertical
axis, reflections and shifts that keep the height is, without the height, the map of the map made of
the same parts. -/
theorem rigid_maps_compose :
    (∀ t : Transform3, SignedPermutation t.linear.rows.entry) ∧
      (∀ t : Transform2, SignedPermutation t.linear.rows.entry) ∧
      GroupLaws (Vec3 Int) ∧ GroupLaws (Vec2 Int) ∧
      (∀ axis, TurnLaws (Vec3 Int) (Transform3.rotation · axis)
        (Transform3.rotationAround · axis)) ∧
      TurnLaws (Vec2 Int) Transform2.rotation Transform2.rotationAround ∧
      ∀ e : Planar, e.inSpace = e.onMap.upright ∧ ∀ p,
        (e.inSpace.apply p).flat = e.onMap.apply p.flat ∧ (e.inSpace.apply p).y = p.y :=
  ⟨fun t => t.linear.signedPermutation, fun t => t.linear.signedPermutation, groupLaws, groupLaws,
    Transform3.turnLaws, Transform2.turnLaws,
    fun e => ⟨e.inSpace_eq, e.flat_apply_inSpace⟩⟩

end VoxelServer
