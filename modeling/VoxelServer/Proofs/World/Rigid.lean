import Mathlib.Tactic.Linarith
import Mathlib.Tactic.Ring
import VoxelServer.World.Coord

/-!
# Rigid maps and boxes

A rigid map takes boxes to boxes. It may swap their corners along an axis, which is why the image of
a box is made of the least and the greatest coordinates of its two moved corners.

* `Matrix2.picks`, `Matrix3.picks`: a row of an orthogonal matrix is one coordinate, up to its sign;
* `Vec2.within_iff`, `Vec3.within_iff`: a box is an interval along each axis;
* `LawfulCoord`: what positions, boxes and rigid maps have to do with each other, on the map and in
  space alike;
* `within_apply_iff`: a position lies in a box exactly if it lies in the moved box once it is moved.
-/

namespace VoxelServer

/-- Of two squares that add up to one, one is zero. -/
theorem unit_cases {x rest : Int} (nonneg : 0 ≤ rest) (sum : x * x + rest = 1) :
    (x = 1 ∧ rest = 0) ∨ (x = -1 ∧ rest = 0) ∨ (x = 0 ∧ rest = 1) := by
  have low : -1 ≤ x := by nlinarith
  have high : x ≤ 1 := by nlinarith
  obtain rfl | rfl | rfl : x = -1 ∨ x = 0 ∨ x = 1 := by omega
  all_goals omega

/-- Whether a value lies between two others, in whichever order these are. -/
def Between (a b x : Int) : Prop := min a b ≤ x ∧ x ≤ max a b

theorem Between.neg {a b x : Int} (h : Between a b x) : Between (-a) (-b) (-x) := by
  unfold Between at h ⊢
  omega

theorem Between.add {a b x : Int} (h : Between a b x) (c : Int) :
    Between (a + c) (b + c) (x + c) := by
  unfold Between at h ⊢
  omega

/-- The laws of positions, boxes and rigid maps. -/
class LawfulCoord (P : Type) [Coord P] : Prop where
  /-- The corners of a box that is not empty are its least and its greatest position. -/
  sorted {low high : P} : Coord.within low low high = true → min low high = low ∧ max low high = high
  /-- A box inside of another one, given by its corners, is not empty. -/
  corners {low high top : P} : Coord.within high low top = true → Coord.within low low high = true
  /-- Its positions are positions of the other one. -/
  within_trans {low high low' high' p : P} : Coord.within low' low high = true →
    Coord.within high' low' high = true → Coord.within p low' high' = true →
      Coord.within p low high = true
  within_min_max (a b : P) : Coord.within (min a b) (min a b) (max a b) = true
  /-- Rigid maps keep what lies between two positions between them. -/
  within_apply (t : Coord.Transform P) {a b p : P} : Coord.within p (min a b) (max a b) = true →
    Coord.within (Coord.apply t p) (min (Coord.apply t a) (Coord.apply t b))
      (max (Coord.apply t a) (Coord.apply t b)) = true
  apply_identity (p : P) : Coord.apply Coord.identity p = p
  apply_invert (t : Coord.Transform P) (p : P) : Coord.apply t (Coord.apply (Coord.invert t) p) = p
  invert_apply (t : Coord.Transform P) (p : P) : Coord.apply (Coord.invert t) (Coord.apply t p) = p
  apply_andThen (s t : Coord.Transform P) (p : P) :
    Coord.apply (Coord.andThen s t) p = Coord.apply t (Coord.apply s p)
  /-- The places of positions of a box are below their number, -/
  index_lt {low high p : P} : Coord.within p low high = true →
    Coord.index low high p < Coord.count low high
  /-- and no two of them are the same. -/
  index_inj {low high p q : P} : Coord.within p low high = true → Coord.within q low high = true →
    Coord.index low high p = Coord.index low high q → p = q
  /-- Going through a box visits that number of positions. -/
  length_positions (low high : P) : (Coord.positions low high).length = Coord.count low high

/-! ## The map -/

namespace Matrix2

/-- A row of an orthogonal matrix picks one coordinate, up to its sign. -/
theorem picks {u : Vec2 Int} (unit : dot u u = 1) :
    (∀ v, dot u v = v.x) ∨ (∀ v, dot u v = -v.x) ∨ (∀ v, dot u v = v.z) ∨
      (∀ v, dot u v = -v.z) := by
  obtain ⟨a, b⟩ := u
  simp only [dot] at unit ⊢
  obtain ⟨rfl, none⟩ | ⟨rfl, none⟩ | ⟨rfl, rest⟩ := unit_cases (mul_self_nonneg b) unit
  · obtain rfl := mul_self_eq_zero.mp none
    exact .inl fun v => by simp
  · obtain rfl := mul_self_eq_zero.mp none
    exact .inr (.inl fun v => by simp)
  · obtain rfl | rfl := mul_self_eq_one_iff.mp rest
    · exact .inr (.inr (.inl fun v => by simp))
    · exact .inr (.inr (.inr fun v => by simp))

end Matrix2

namespace Vec2

theorem eq_iff {v w : Vec2 Int} : v = w ↔ v.x = w.x ∧ v.z = w.z := by
  obtain ⟨x, z⟩ := v
  obtain ⟨x', z'⟩ := w
  simp

@[simp] theorem add_x (v w : Vec2 Int) : (v + w).x = v.x + w.x := rfl
@[simp] theorem add_z (v w : Vec2 Int) : (v + w).z = v.z + w.z := rfl
@[simp] theorem sub_x (v w : Vec2 Int) : (v - w).x = v.x - w.x := rfl
@[simp] theorem sub_z (v w : Vec2 Int) : (v - w).z = v.z - w.z := rfl
@[simp] theorem neg_x (v : Vec2 Int) : (-v).x = -v.x := rfl
@[simp] theorem neg_z (v : Vec2 Int) : (-v).z = -v.z := rfl
@[simp] theorem min_x (v w : Vec2 Int) : (min v w).x = min v.x w.x := rfl
@[simp] theorem min_z (v w : Vec2 Int) : (min v w).z = min v.z w.z := rfl
@[simp] theorem max_x (v w : Vec2 Int) : (max v w).x = max v.x w.x := rfl
@[simp] theorem max_z (v w : Vec2 Int) : (max v w).z = max v.z w.z := rfl

/-- Whether a position lies between two others along each axis. -/
def Between (a b p : Vec2 Int) : Prop :=
  VoxelServer.Between a.x b.x p.x ∧ VoxelServer.Between a.z b.z p.z

theorem within_iff {p low high : Vec2 Int} :
    Coord.within p low high = true ↔
      (low.x ≤ p.x ∧ p.x ≤ high.x) ∧ (low.z ≤ p.z ∧ p.z ≤ high.z) := by
  simp only [Coord.within, Bool.and_eq_true, decide_eq_true_eq, eq_iff, min_x, min_z, max_x, max_z]
  omega

theorem between_iff {a b p : Vec2 Int} :
    Coord.within p (min a b) (max a b) = true ↔ Between a b p := within_iff

theorem Between.dot {u a b p : Vec2 Int} (h : Between a b p) (unit : Matrix2.dot u u = 1) :
    VoxelServer.Between (Matrix2.dot u a) (Matrix2.dot u b) (Matrix2.dot u p) := by
  obtain pick | pick | pick | pick := Matrix2.picks unit <;> simp only [pick]
  · exact h.1
  · exact h.1.neg
  · exact h.2
  · exact h.2.neg

end Vec2

namespace Orientation2

/-- The rows are unit vectors. -/
theorem unit_rows (o : Orientation2) :
    Matrix2.dot o.rows.x o.rows.x = 1 ∧ Matrix2.dot o.rows.z o.rows.z = 1 :=
  ⟨congrArg (fun m : Matrix2 => m.x.x) o.mul_transpose,
    congrArg (fun m : Matrix2 => m.z.z) o.mul_transpose⟩

theorem apply_inverse (o : Orientation2) (v : Vec2 Int) :
    o.rows.apply (o.inverse.rows.apply v) = v := by
  have one : Matrix2.one.apply v = v := by simp [Matrix2.apply, Matrix2.dot, Matrix2.one]
  rw [← Matrix2.apply_mul, inverse, o.mul_transpose, one]

theorem inverse_apply (o : Orientation2) (v : Vec2 Int) :
    o.inverse.rows.apply (o.rows.apply v) = v := o.inverse.apply_inverse v

end Orientation2

namespace Matrix2

theorem apply_add (m : Matrix2) (v w : Vec2 Int) : m.apply (v + w) = m.apply v + m.apply w := by
  simp only [Vec2.eq_iff, apply, dot, Vec2.add_x, Vec2.add_z]
  constructor <;> ring

theorem apply_neg (m : Matrix2) (v : Vec2 Int) : m.apply (-v) = -m.apply v := by
  simp only [Vec2.eq_iff, apply, dot, Vec2.neg_x, Vec2.neg_z]
  constructor <;> ring

end Matrix2

namespace Transform2

theorem apply_identity (p : Vec2 Int) : identity.apply p = p := by
  simp [apply, identity, Orientation2.one, Matrix2.apply, Matrix2.dot, Matrix2.one, Vec2.eq_iff]

theorem apply_invert (t : Transform2) (p : Vec2 Int) : t.apply (t.invert.apply p) = p := by
  simp only [apply, invert, Matrix2.apply_add, Matrix2.apply_neg, Orientation2.apply_inverse]
  simp [Vec2.eq_iff]

theorem invert_apply (t : Transform2) (p : Vec2 Int) : t.invert.apply (t.apply p) = p := by
  simp only [apply, invert, Matrix2.apply_add, Orientation2.inverse_apply]
  simp [Vec2.eq_iff]

theorem apply_andThen (s t : Transform2) (p : Vec2 Int) :
    (s.andThen t).apply p = t.apply (s.apply p) := by
  simp only [apply, andThen, Orientation2.mul, Matrix2.apply_mul, Matrix2.apply_add]
  simp [Vec2.eq_iff, Int.add_assoc]

theorem between_apply (t : Transform2) {a b p : Vec2 Int} (h : Vec2.Between a b p) :
    Vec2.Between (t.apply a) (t.apply b) (t.apply p) :=
  ⟨(h.dot t.linear.unit_rows.1).add _, (h.dot t.linear.unit_rows.2).add _⟩

end Transform2

/-- The place of a cell in its row, and that of the row. -/
theorem row_inj {width i j i' j' : Nat} (hj : j < width) (hj' : j' < width)
    (same : i * width + j = i' * width + j') : i = i' ∧ j = j' := by
  have rows : i = i' := by
    have quotient (i j : Nat) (hj : j < width) : (i * width + j) / width = i := by
      rw [Nat.add_comm, Nat.add_mul_div_right _ _ (Nat.zero_lt_of_lt hj), Nat.div_eq_of_lt hj,
        Nat.zero_add]
    rw [← quotient i j hj, same, quotient i' j' hj']
  subst rows
  exact ⟨rfl, Nat.add_left_cancel same⟩

theorem row_lt {width height i j : Nat} (hi : i < height) (hj : j < width) :
    i * width + j < height * width := by
  have whole : (i + 1) * width ≤ height * width := Nat.mul_le_mul_right _ hi
  rw [Nat.succ_mul] at whole
  omega

theorem length_interval (low high : Int) :
    (interval low high).length = (high - low + 1).toNat := by
  rw [interval, List.length_map, List.length_range]

theorem length_rows {P : Type} (low high : Int) (row : Int → List P) {width : Nat}
    (wide : ∀ i, (row i).length = width) :
    ((interval low high).flatMap row).length = (high - low + 1).toNat * width := by
  rw [List.length_flatMap, List.map_congr_left fun i _ => wide i, List.map_const',
    List.sum_replicate_nat, length_interval]

instance : LawfulCoord (Vec2 Int) where
  sorted h := by
    rw [Vec2.within_iff] at h
    simp only [Vec2.eq_iff, Vec2.min_x, Vec2.min_z, Vec2.max_x, Vec2.max_z]
    omega
  corners h := by
    rw [Vec2.within_iff] at h ⊢
    omega
  within_trans h h' hp := by
    rw [Vec2.within_iff] at h h' hp ⊢
    omega
  within_min_max a b := by
    simp only [Vec2.within_iff, Vec2.min_x, Vec2.min_z, Vec2.max_x, Vec2.max_z]
    omega
  within_apply t _ _ _ h := Vec2.between_iff.mpr (t.between_apply (Vec2.between_iff.mp h))
  apply_identity := Transform2.apply_identity
  apply_invert := Transform2.apply_invert
  invert_apply := Transform2.invert_apply
  apply_andThen := Transform2.apply_andThen
  index_lt {low high p} h := by
    rw [Vec2.within_iff] at h
    have row : (p.z - low.z).toNat < (high.z - low.z + 1).toNat := by omega
    have place : (p.x - low.x).toNat < (high.x - low.x + 1).toNat := by omega
    exact Nat.lt_of_lt_of_eq (row_lt row place) (Nat.mul_comm _ _)
  index_inj {low high p q} hp hq same := by
    rw [Vec2.within_iff] at hp hq
    obtain ⟨hz, hx⟩ := row_inj (by omega) (by omega) same
    rw [Vec2.eq_iff]
    omega
  length_positions low high := by
    refine (length_rows low.z high.z _ fun z => ?_).trans (Nat.mul_comm _ _)
    rw [List.length_map, length_interval]

/-! ## Space -/

namespace Matrix3

/-- A row of an orthogonal matrix picks one coordinate, up to its sign. -/
theorem picks {u : Vec3 Int} (unit : dot u u = 1) :
    (∀ v, dot u v = v.x) ∨ (∀ v, dot u v = -v.x) ∨ (∀ v, dot u v = v.y) ∨
      (∀ v, dot u v = -v.y) ∨ (∀ v, dot u v = v.z) ∨ (∀ v, dot u v = -v.z) := by
  obtain ⟨a, b, c⟩ := u
  simp only [dot] at unit ⊢
  rw [Int.add_assoc] at unit
  have nonneg := add_nonneg (mul_self_nonneg b) (mul_self_nonneg c)
  have zeros (none : b * b + c * c = 0) : b = 0 ∧ c = 0 := mul_self_add_mul_self_eq_zero.mp none
  obtain ⟨rfl, none⟩ | ⟨rfl, none⟩ | ⟨rfl, rest⟩ := unit_cases nonneg unit
  · obtain ⟨rfl, rfl⟩ := zeros none
    exact .inl fun v => by simp
  · obtain ⟨rfl, rfl⟩ := zeros none
    exact .inr (.inl fun v => by simp)
  -- The other two coordinates are a row of a matrix of the map.
  · obtain pick | pick | pick | pick := Matrix2.picks (u := ⟨b, c⟩) rest
    · exact .inr (.inr (.inl fun v => by simpa [Matrix2.dot] using pick ⟨v.y, v.z⟩))
    · exact .inr (.inr (.inr (.inl fun v => by simpa [Matrix2.dot] using pick ⟨v.y, v.z⟩)))
    · exact .inr (.inr (.inr (.inr (.inl fun v => by simpa [Matrix2.dot] using pick ⟨v.y, v.z⟩))))
    · exact .inr (.inr (.inr (.inr (.inr fun v => by simpa [Matrix2.dot] using pick ⟨v.y, v.z⟩))))

end Matrix3

namespace Vec3

theorem eq_iff {v w : Vec3 Int} : v = w ↔ v.x = w.x ∧ v.y = w.y ∧ v.z = w.z := by
  obtain ⟨x, y, z⟩ := v
  obtain ⟨x', y', z'⟩ := w
  simp

@[simp] theorem add_x (v w : Vec3 Int) : (v + w).x = v.x + w.x := rfl
@[simp] theorem add_y (v w : Vec3 Int) : (v + w).y = v.y + w.y := rfl
@[simp] theorem add_z (v w : Vec3 Int) : (v + w).z = v.z + w.z := rfl
@[simp] theorem sub_x (v w : Vec3 Int) : (v - w).x = v.x - w.x := rfl
@[simp] theorem sub_y (v w : Vec3 Int) : (v - w).y = v.y - w.y := rfl
@[simp] theorem sub_z (v w : Vec3 Int) : (v - w).z = v.z - w.z := rfl
@[simp] theorem neg_x (v : Vec3 Int) : (-v).x = -v.x := rfl
@[simp] theorem neg_y (v : Vec3 Int) : (-v).y = -v.y := rfl
@[simp] theorem neg_z (v : Vec3 Int) : (-v).z = -v.z := rfl
@[simp] theorem min_x (v w : Vec3 Int) : (min v w).x = min v.x w.x := rfl
@[simp] theorem min_y (v w : Vec3 Int) : (min v w).y = min v.y w.y := rfl
@[simp] theorem min_z (v w : Vec3 Int) : (min v w).z = min v.z w.z := rfl
@[simp] theorem max_x (v w : Vec3 Int) : (max v w).x = max v.x w.x := rfl
@[simp] theorem max_y (v w : Vec3 Int) : (max v w).y = max v.y w.y := rfl
@[simp] theorem max_z (v w : Vec3 Int) : (max v w).z = max v.z w.z := rfl

/-- Whether a position lies between two others along each axis. -/
def Between (a b p : Vec3 Int) : Prop :=
  VoxelServer.Between a.x b.x p.x ∧ VoxelServer.Between a.y b.y p.y ∧
    VoxelServer.Between a.z b.z p.z

theorem within_iff {p low high : Vec3 Int} :
    Coord.within p low high = true ↔
      (low.x ≤ p.x ∧ p.x ≤ high.x) ∧ (low.y ≤ p.y ∧ p.y ≤ high.y) ∧
        (low.z ≤ p.z ∧ p.z ≤ high.z) := by
  simp only [Coord.within, Bool.and_eq_true, decide_eq_true_eq, eq_iff, min_x, min_y, min_z, max_x,
    max_y, max_z]
  omega

theorem between_iff {a b p : Vec3 Int} :
    Coord.within p (min a b) (max a b) = true ↔ Between a b p := within_iff

theorem Between.dot {u a b p : Vec3 Int} (h : Between a b p) (unit : Matrix3.dot u u = 1) :
    VoxelServer.Between (Matrix3.dot u a) (Matrix3.dot u b) (Matrix3.dot u p) := by
  obtain pick | pick | pick | pick | pick | pick := Matrix3.picks unit <;> simp only [pick]
  · exact h.1
  · exact h.1.neg
  · exact h.2.1
  · exact h.2.1.neg
  · exact h.2.2
  · exact h.2.2.neg

end Vec3

namespace Matrix3

theorem apply_add (m : Matrix3) (v w : Vec3 Int) : m.apply (v + w) = m.apply v + m.apply w := by
  simp only [Vec3.eq_iff, apply, dot, Vec3.add_x, Vec3.add_y, Vec3.add_z]
  refine ⟨?_, ?_, ?_⟩ <;> ring

theorem apply_neg (m : Matrix3) (v : Vec3 Int) : m.apply (-v) = -m.apply v := by
  simp only [Vec3.eq_iff, apply, dot, Vec3.neg_x, Vec3.neg_y, Vec3.neg_z]
  refine ⟨?_, ?_, ?_⟩ <;> ring

end Matrix3

namespace Orientation3

/-- The rows are unit vectors. -/
theorem unit_rows (o : Orientation3) :
    Matrix3.dot o.rows.x o.rows.x = 1 ∧ Matrix3.dot o.rows.y o.rows.y = 1 ∧
      Matrix3.dot o.rows.z o.rows.z = 1 :=
  ⟨congrArg (fun m : Matrix3 => m.x.x) o.mul_transpose,
    congrArg (fun m : Matrix3 => m.y.y) o.mul_transpose,
    congrArg (fun m : Matrix3 => m.z.z) o.mul_transpose⟩

theorem apply_inverse (o : Orientation3) (v : Vec3 Int) :
    o.rows.apply (o.inverse.rows.apply v) = v := by
  have one : Matrix3.one.apply v = v := by simp [Matrix3.apply, Matrix3.dot, Matrix3.one]
  rw [← Matrix3.apply_mul, inverse, o.mul_transpose, one]

theorem inverse_apply (o : Orientation3) (v : Vec3 Int) :
    o.inverse.rows.apply (o.rows.apply v) = v := o.inverse.apply_inverse v

end Orientation3

namespace Transform3

theorem apply_identity (p : Vec3 Int) : identity.apply p = p := by
  simp [apply, identity, Orientation3.one, Matrix3.apply, Matrix3.dot, Matrix3.one, Vec3.eq_iff]

theorem apply_invert (t : Transform3) (p : Vec3 Int) : t.apply (t.invert.apply p) = p := by
  simp only [apply, invert, Matrix3.apply_add, Matrix3.apply_neg, Orientation3.apply_inverse]
  simp [Vec3.eq_iff]

theorem invert_apply (t : Transform3) (p : Vec3 Int) : t.invert.apply (t.apply p) = p := by
  simp only [apply, invert, Matrix3.apply_add, Orientation3.inverse_apply]
  simp [Vec3.eq_iff]

theorem apply_andThen (s t : Transform3) (p : Vec3 Int) :
    (s.andThen t).apply p = t.apply (s.apply p) := by
  simp only [apply, andThen, Orientation3.mul, Matrix3.apply_mul, Matrix3.apply_add]
  simp [Vec3.eq_iff, Int.add_assoc]

theorem between_apply (t : Transform3) {a b p : Vec3 Int} (h : Vec3.Between a b p) :
    Vec3.Between (t.apply a) (t.apply b) (t.apply p) :=
  have rows := t.linear.unit_rows
  ⟨(h.dot rows.1).add _, (h.dot rows.2.1).add _, (h.dot rows.2.2).add _⟩

end Transform3

instance : LawfulCoord (Vec3 Int) where
  sorted h := by
    rw [Vec3.within_iff] at h
    simp only [Vec3.eq_iff, Vec3.min_x, Vec3.min_y, Vec3.min_z, Vec3.max_x, Vec3.max_y, Vec3.max_z]
    omega
  corners h := by
    rw [Vec3.within_iff] at h ⊢
    omega
  within_trans h h' hp := by
    rw [Vec3.within_iff] at h h' hp ⊢
    omega
  within_min_max a b := by
    simp only [Vec3.within_iff, Vec3.min_x, Vec3.min_y, Vec3.min_z, Vec3.max_x, Vec3.max_y,
      Vec3.max_z]
    omega
  within_apply t _ _ _ h := Vec3.between_iff.mpr (t.between_apply (Vec3.between_iff.mp h))
  apply_identity := Transform3.apply_identity
  apply_invert := Transform3.apply_invert
  invert_apply := Transform3.invert_apply
  apply_andThen := Transform3.apply_andThen
  index_lt {low high p} h := by
    rw [Vec3.within_iff] at h
    have layer : (p.y - low.y).toNat < (high.y - low.y + 1).toNat := by omega
    have row : (p.z - low.z).toNat < (high.z - low.z + 1).toNat := by omega
    have place : (p.x - low.x).toNat < (high.x - low.x + 1).toNat := by omega
    refine Nat.lt_of_lt_of_eq (row_lt (row_lt layer row) place) ?_
    simp only [Coord.count]
    ring
  index_inj {low high p q} hp hq same := by
    rw [Vec3.within_iff] at hp hq
    obtain ⟨column, hx⟩ := row_inj (by omega) (by omega) same
    obtain ⟨hy, hz⟩ := row_inj (by omega) (by omega) column
    rw [Vec3.eq_iff]
    omega
  length_positions low high := by
    have plane (y : Int) := length_rows (P := Vec3 Int) low.z high.z
      (fun z => (interval low.x high.x).map fun x => ⟨x, y, z⟩)
      (fun z => (List.length_map _).trans (length_interval _ _))
    refine (length_rows low.y high.y _ plane).trans ?_
    simp only [Coord.count]
    ring

/-! ## Moved boxes -/

section

variable {P : Type} [Coord P] [LawfulCoord P]

open LawfulCoord

/-- A position lies in a box exactly if it lies in the moved box once it is moved. -/
theorem within_apply_iff (t : Coord.Transform P) {low high p : P}
    (box : Coord.within low low high = true) :
    Coord.within (Coord.apply t p) (min (Coord.apply t low) (Coord.apply t high))
      (max (Coord.apply t low) (Coord.apply t high)) = true ↔
      Coord.within p low high = true := by
  obtain ⟨least, greatest⟩ := sorted box
  constructor
  · intro h
    have back := within_apply (Coord.invert t) h
    rwa [invert_apply, invert_apply, invert_apply, least, greatest] at back
  · intro h
    refine within_apply t ?_
    rwa [least, greatest]

/-- A map made of two is undone in the opposite order. -/
theorem invert_andThen (s t : Coord.Transform P) (p : P) :
    Coord.apply (Coord.invert (Coord.andThen s t)) p =
      Coord.apply (Coord.invert s) (Coord.apply (Coord.invert t) p) := by
  calc Coord.apply (Coord.invert (Coord.andThen s t)) p
    _ = Coord.apply (Coord.invert (Coord.andThen s t)) (Coord.apply (Coord.andThen s t)
          (Coord.apply (Coord.invert s) (Coord.apply (Coord.invert t) p))) := by
      rw [apply_andThen, apply_invert, apply_invert]
    _ = Coord.apply (Coord.invert s) (Coord.apply (Coord.invert t) p) := invert_apply _ _

theorem invert_identity (p : P) : Coord.apply (Coord.invert Coord.identity) p = p := by
  have undone := invert_apply Coord.identity p
  rwa [apply_identity] at undone

theorem apply_bijective (t : Coord.Transform P) : Function.Bijective (Coord.apply t) :=
  ⟨Function.LeftInverse.injective (invert_apply t), Function.RightInverse.surjective (apply_invert t)⟩

end

end VoxelServer
