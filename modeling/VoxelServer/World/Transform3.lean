import VoxelServer.Vec

/-!
# Rigid maps of space

Quarter turns, reflections and shifts of block positions. The linear part of such a map is an
orthogonal matrix of integers, and so a permutation of the axes with signs: every row and every
column holds a single 1 or -1.

* `Orientation3`: the linear parts, with their product and inverse.
* `Transform3`: the maps; `andThen` composes them and `invert` undoes one.
-/

namespace VoxelServer

/-- The axes of space. -/
inductive Axis
  | x
  | y
  | z
  deriving DecidableEq, Repr, Inhabited

/-- The rows of a matrix. -/
abbrev Matrix3 := Vec3 (Vec3 Int)

namespace Matrix3

def dot (u v : Vec3 Int) : Int := u.x * v.x + u.y * v.y + u.z * v.z

def one : Matrix3 := ⟨⟨1, 0, 0⟩, ⟨0, 1, 0⟩, ⟨0, 0, 1⟩⟩

def transpose (m : Matrix3) : Matrix3 :=
  ⟨⟨m.x.x, m.y.x, m.z.x⟩, ⟨m.x.y, m.y.y, m.z.y⟩, ⟨m.x.z, m.y.z, m.z.z⟩⟩

def apply (m : Matrix3) (v : Vec3 Int) : Vec3 Int := ⟨dot m.x v, dot m.y v, dot m.z v⟩

def mul (a b : Matrix3) : Matrix3 :=
  let columns := transpose b
  ⟨apply columns a.x, apply columns a.y, apply columns a.z⟩

theorem apply_mul (a b : Matrix3) (v : Vec3 Int) : (mul a b).apply v = a.apply (b.apply v) := by
  simp only [apply, mul, transpose, dot, Vec3.mk.injEq]
  grind

theorem mul_assoc (a b c : Matrix3) : mul (mul a b) c = mul a (mul b c) := by
  simp only [mul, transpose, apply, dot, Vec3.mk.injEq]
  grind

theorem one_mul (a : Matrix3) : mul one a = a := by
  simp [mul, transpose, apply, dot, one]

theorem transpose_mul (a b : Matrix3) :
    transpose (mul a b) = mul (transpose b) (transpose a) := by
  simp only [mul, transpose, apply, dot, Vec3.mk.injEq]
  grind

@[simp] theorem transpose_transpose (a : Matrix3) : transpose (transpose a) = a := rfl

end Matrix3

/-- An orthogonal matrix. -/
structure Orientation3 where
  rows : Matrix3
  mul_transpose : rows.mul rows.transpose = .one
  transpose_mul : rows.transpose.mul rows = .one
  deriving DecidableEq

namespace Orientation3

def one : Orientation3 := ⟨.one, rfl, rfl⟩

def mul (a b : Orientation3) : Orientation3 where
  rows := a.rows.mul b.rows
  mul_transpose := by
    rw [Matrix3.transpose_mul, Matrix3.mul_assoc, ← Matrix3.mul_assoc b.rows, b.mul_transpose,
      Matrix3.one_mul, a.mul_transpose]
  transpose_mul := by
    rw [Matrix3.transpose_mul, Matrix3.mul_assoc, ← Matrix3.mul_assoc _ a.rows, a.transpose_mul,
      Matrix3.one_mul, b.transpose_mul]

def inverse (a : Orientation3) : Orientation3 where
  rows := a.rows.transpose
  mul_transpose := a.transpose_mul
  transpose_mul := a.mul_transpose

/-- A quarter turn, counter-clockwise seen from the far end of the axis. -/
def quarterTurn : Axis → Orientation3
  | .x => ⟨⟨⟨1, 0, 0⟩, ⟨0, 0, -1⟩, ⟨0, 1, 0⟩⟩, rfl, rfl⟩
  | .y => ⟨⟨⟨0, 0, 1⟩, ⟨0, 1, 0⟩, ⟨-1, 0, 0⟩⟩, rfl, rfl⟩
  | .z => ⟨⟨⟨0, -1, 0⟩, ⟨1, 0, 0⟩, ⟨0, 0, 1⟩⟩, rfl, rfl⟩

def power (a : Orientation3) : Nat → Orientation3
  | 0 => one
  | n + 1 => a.mul (a.power n)

/-- A change of sign along one axis. -/
def reflection : Axis → Orientation3
  | .x => ⟨⟨⟨-1, 0, 0⟩, ⟨0, 1, 0⟩, ⟨0, 0, 1⟩⟩, rfl, rfl⟩
  | .y => ⟨⟨⟨1, 0, 0⟩, ⟨0, -1, 0⟩, ⟨0, 0, 1⟩⟩, rfl, rfl⟩
  | .z => ⟨⟨⟨1, 0, 0⟩, ⟨0, 1, 0⟩, ⟨0, 0, -1⟩⟩, rfl, rfl⟩

end Orientation3

/-- A turn, possibly with a reflection, followed by a shift. -/
structure Transform3 where
  linear : Orientation3
  offset : Vec3 Int
  deriving DecidableEq

namespace Transform3

def identity : Transform3 := ⟨.one, ⟨0, 0, 0⟩⟩

def shift (offset : Vec3 Int) : Transform3 := ⟨.one, offset⟩

/-- Any number of quarter turns about an axis through the origin. -/
def rotation (quarterTurns : Int) (axis : Axis) : Transform3 :=
  ⟨(Orientation3.quarterTurn axis).power (quarterTurns % 4).toNat, ⟨0, 0, 0⟩⟩

def reflection (axis : Axis) : Transform3 := ⟨.reflection axis, ⟨0, 0, 0⟩⟩

def apply (t : Transform3) (p : Vec3 Int) : Vec3 Int := t.linear.rows.apply p + t.offset

def invert (t : Transform3) : Transform3 :=
  let linear := t.linear.inverse
  ⟨linear, -linear.rows.apply t.offset⟩

/-- The first map, then the second. -/
def andThen (t next : Transform3) : Transform3 :=
  ⟨next.linear.mul t.linear, next.linear.rows.apply t.offset + next.offset⟩

/-- Quarter turns that leave `center` where it is. -/
def rotationAround (quarterTurns : Int) (axis : Axis) (center : Vec3 Int) : Transform3 :=
  ((shift (-center)).andThen (rotation quarterTurns axis)).andThen (shift center)

end Transform3

end VoxelServer
