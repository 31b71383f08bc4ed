import VoxelServer.World.Transform3

/-!
# Rigid maps of the map

Quarter turns, reflections and shifts of places on the map: the rigid maps of space that keep
the height, without the height.

* `Orientation2`: the linear parts, with their product and inverse.
* `Transform2`: the maps; `andThen` composes them and `invert` undoes one.
-/

namespace VoxelServer

/-- The rows of a matrix. -/
abbrev Matrix2 := Vec2 (Vec2 Int)

namespace Matrix2

def dot (u v : Vec2 Int) : Int := u.x * v.x + u.z * v.z

def one : Matrix2 := ⟨⟨1, 0⟩, ⟨0, 1⟩⟩

def transpose (m : Matrix2) : Matrix2 := ⟨⟨m.x.x, m.z.x⟩, ⟨m.x.z, m.z.z⟩⟩

def apply (m : Matrix2) (v : Vec2 Int) : Vec2 Int := ⟨dot m.x v, dot m.z v⟩

def mul (a b : Matrix2) : Matrix2 :=
  let columns := transpose b
  ⟨apply columns a.x, apply columns a.z⟩

theorem apply_mul (a b : Matrix2) (v : Vec2 Int) : (mul a b).apply v = a.apply (b.apply v) := by
  simp only [apply, mul, transpose, dot, Vec2.mk.injEq]
  grind

theorem mul_assoc (a b c : Matrix2) : mul (mul a b) c = mul a (mul b c) := by
  simp only [mul, transpose, apply, dot, Vec2.mk.injEq]
  grind

theorem one_mul (a : Matrix2) : mul one a = a := by
  simp [mul, transpose, apply, dot, one]

theorem transpose_mul (a b : Matrix2) :
    transpose (mul a b) = mul (transpose b) (transpose a) := by
  simp only [mul, transpose, apply, dot, Vec2.mk.injEq]
  grind

@[simp] theorem transpose_transpose (a : Matrix2) : transpose (transpose a) = a := rfl

end Matrix2

/-- An orthogonal matrix. -/
structure Orientation2 where
  rows : Matrix2
  mul_transpose : rows.mul rows.transpose = .one
  transpose_mul : rows.transpose.mul rows = .one
  deriving DecidableEq

namespace Orientation2

def one : Orientation2 := ⟨.one, rfl, rfl⟩

def mul (a b : Orientation2) : Orientation2 where
  rows := a.rows.mul b.rows
  mul_transpose := by
    rw [Matrix2.transpose_mul, Matrix2.mul_assoc, ← Matrix2.mul_assoc b.rows, b.mul_transpose,
      Matrix2.one_mul, a.mul_transpose]
  transpose_mul := by
    rw [Matrix2.transpose_mul, Matrix2.mul_assoc, ← Matrix2.mul_assoc _ a.rows, a.transpose_mul,
      Matrix2.one_mul, b.transpose_mul]

def inverse (a : Orientation2) : Orientation2 where
  rows := a.rows.transpose
  mul_transpose := a.transpose_mul
  transpose_mul := a.mul_transpose

/-- A quarter turn, the same way as one about the vertical axis of space. -/
def quarterTurn : Orientation2 := ⟨⟨⟨0, 1⟩, ⟨-1, 0⟩⟩, rfl, rfl⟩

def power (a : Orientation2) : Nat → Orientation2
  | 0 => one
  | n + 1 => a.mul (a.power n)

def reflectionX : Orientation2 := ⟨⟨⟨-1, 0⟩, ⟨0, 1⟩⟩, rfl, rfl⟩

def reflectionZ : Orientation2 := ⟨⟨⟨1, 0⟩, ⟨0, -1⟩⟩, rfl, rfl⟩

end Orientation2

/-- A turn, possibly with a reflection, followed by a shift. -/
structure Transform2 where
  linear : Orientation2
  offset : Vec2 Int
  deriving DecidableEq

namespace Transform2

def identity : Transform2 := ⟨.one, ⟨0, 0⟩⟩

def shift (offset : Vec2 Int) : Transform2 := ⟨.one, offset⟩

/-- Any number of quarter turns about the origin. -/
def rotation (quarterTurns : Int) : Transform2 :=
  ⟨Orientation2.quarterTurn.power (quarterTurns % 4).toNat, ⟨0, 0⟩⟩

def reflectionX : Transform2 := ⟨.reflectionX, ⟨0, 0⟩⟩

def reflectionZ : Transform2 := ⟨.reflectionZ, ⟨0, 0⟩⟩

def apply (t : Transform2) (p : Vec2 Int) : Vec2 Int := t.linear.rows.apply p + t.offset

def invert (t : Transform2) : Transform2 :=
  let linear := t.linear.inverse
  ⟨linear, -linear.rows.apply t.offset⟩

/-- The first map, then the second. -/
def andThen (t next : Transform2) : Transform2 :=
  ⟨next.linear.mul t.linear, next.linear.rows.apply t.offset + next.offset⟩

/-- Quarter turns that leave `center` where it is. -/
def rotationAround (quarterTurns : Int) (center : Vec2 Int) : Transform2 :=
  ((shift (-center)).andThen (rotation quarterTurns)).andThen (shift center)

end Transform2

end VoxelServer
