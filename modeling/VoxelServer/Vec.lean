/-!
# Vectors

Places in the world have three coordinates, places on the map two: `y` is the height, and the map
has none.

* `Vec3`, `Vec2`: the types, with componentwise `+`, `-`, negation, minimum and maximum.
-/

namespace VoxelServer

structure Vec3 (α : Type) where
  x : α
  y : α
  z : α
  deriving DecidableEq, Repr, Inhabited

structure Vec2 (α : Type) where
  x : α
  z : α
  deriving DecidableEq, Repr, Inhabited

namespace Vec3

variable {α β : Type}

def map (f : α → β) (v : Vec3 α) : Vec3 β := ⟨f v.x, f v.y, f v.z⟩

def zipWith (f : α → α → α) (v w : Vec3 α) : Vec3 α := ⟨f v.x w.x, f v.y w.y, f v.z w.z⟩

instance [Add α] : Add (Vec3 α) := ⟨zipWith (· + ·)⟩
instance [Sub α] : Sub (Vec3 α) := ⟨zipWith (· - ·)⟩
instance [Neg α] : Neg (Vec3 α) := ⟨map (- ·)⟩
instance [Min α] : Min (Vec3 α) := ⟨zipWith min⟩
instance [Max α] : Max (Vec3 α) := ⟨zipWith max⟩

/-- The coordinates, as error texts spell them. -/
def text (v : Vec3 Int) : String := s!"({v.x}, {v.y}, {v.z})"

end Vec3

namespace Vec2

variable {α β : Type}

def map (f : α → β) (v : Vec2 α) : Vec2 β := ⟨f v.x, f v.z⟩

def zipWith (f : α → α → α) (v w : Vec2 α) : Vec2 α := ⟨f v.x w.x, f v.z w.z⟩

instance [Add α] : Add (Vec2 α) := ⟨zipWith (· + ·)⟩
instance [Sub α] : Sub (Vec2 α) := ⟨zipWith (· - ·)⟩
instance [Neg α] : Neg (Vec2 α) := ⟨map (- ·)⟩
instance [Min α] : Min (Vec2 α) := ⟨zipWith min⟩
instance [Max α] : Max (Vec2 α) := ⟨zipWith max⟩

/-- The coordinates, as error texts spell them. -/
def text (v : Vec2 Int) : String := s!"({v.x}, {v.z})"

end Vec2

end VoxelServer
