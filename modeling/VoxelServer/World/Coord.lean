import VoxelServer.World.Transform2

/-!
# Positions in a box

What volumes of space and areas of the map have in common: positions with integer coordinates,
boxes given by two inclusive corners, and rigid maps between positions.

* `Coord`: the class, with instances for `Vec3 Int` and `Vec2 Int`.
* `Coord.positions`: all positions of a box in the order in which cells are stored: `x` varies
  fastest, then `z`, then the height.
* `Cells`: a walk through a box in this order, one position after the other.
* `check`: refuses a position outside of a box.
-/

namespace VoxelServer

class Coord (P : Type) extends Add P, Sub P, Neg P, Min P, Max P where
  [decEq : DecidableEq P]
  origin : P
  /-- One along every axis. -/
  unit : P
  text : P → String
  /-- The number of positions in a box. -/
  count (low high : P) : Nat
  /-- The place of a position in the order of its box. -/
  index (low high p : P) : Nat
  /-- The position after another one, unless it is the last. -/
  step? (low high p : P) : Option P
  /-- All positions of a box, in order. None if a corner is above the other on some axis. -/
  positions (low high : P) : List P
  Transform : Type
  [transformDecEq : DecidableEq Transform]
  identity : Transform
  shift : P → Transform
  apply : Transform → P → P
  invert : Transform → Transform
  andThen : Transform → Transform → Transform

attribute [reducible] Coord.decEq Coord.transformDecEq

attribute [instance] Coord.decEq Coord.transformDecEq

/-- The integers from `low` to `high`, both included. -/
def interval (low high : Int) : List Int :=
  (List.range (high - low + 1).toNat).map fun (k : Nat) => low + k

instance : Coord (Vec3 Int) where
  origin := ⟨0, 0, 0⟩
  unit := ⟨1, 1, 1⟩
  text := Vec3.text
  count low high :=
    (high.x - low.x + 1).toNat * (high.y - low.y + 1).toNat * (high.z - low.z + 1).toNat
  index low high p :=
    ((p.y - low.y).toNat * (high.z - low.z + 1).toNat + (p.z - low.z).toNat) *
      (high.x - low.x + 1).toNat + (p.x - low.x).toNat
  step? low high p :=
    if p.x < high.x then some ⟨p.x + 1, p.y, p.z⟩
    else if p.z < high.z then some ⟨low.x, p.y, p.z + 1⟩
    else if p.y < high.y then some ⟨low.x, p.y + 1, low.z⟩
    else none
  positions low high :=
    (interval low.y high.y).flatMap fun y => (interval low.z high.z).flatMap fun z =>
      (interval low.x high.x).map fun x => ⟨x, y, z⟩
  Transform := Transform3
  identity := Transform3.identity
  shift := Transform3.shift
  apply := Transform3.apply
  invert := Transform3.invert
  andThen := Transform3.andThen

instance : Coord (Vec2 Int) where
  origin := ⟨0, 0⟩
  unit := ⟨1, 1⟩
  text := Vec2.text
  count low high := (high.x - low.x + 1).toNat * (high.z - low.z + 1).toNat
  index low high p :=
    (p.z - low.z).toNat * (high.x - low.x + 1).toNat + (p.x - low.x).toNat
  step? low high p :=
    if p.x < high.x then some ⟨p.x + 1, p.z⟩
    else if p.z < high.z then some ⟨low.x, p.z + 1⟩
    else none
  positions low high :=
    (interval low.z high.z).flatMap fun z => (interval low.x high.x).map fun x => ⟨x, z⟩
  Transform := Transform2
  identity := Transform2.identity
  shift := Transform2.shift
  apply := Transform2.apply
  invert := Transform2.invert
  andThen := Transform2.andThen

variable {P : Type} [Coord P]

/-- Whether a position lies in a box. -/
def Coord.within (p low high : P) : Bool := min p low = low && max p high = high

/-- A walk through a box, from where it has got to. -/
structure Cells (P : Type) where
  /-- The position that comes next, unless the walk is over. -/
  next : Option P
  low : P
  high : P
  deriving DecidableEq, Repr

/-- A walk through a whole box. -/
def Cells.new (low high : P) : Cells P :=
  ⟨if Coord.within low low high then some low else none, low, high⟩

/-- The position that comes next, and the rest of the walk. -/
def Cells.advance? (c : Cells P) : Option (P × Cells P) :=
  c.next.map fun p => (p, { c with next := Coord.step? c.low c.high p })

/-- An access outside of a box. -/
structure OutOfBounds (P : Type) where
  position : P
  low : P
  high : P
  deriving DecidableEq, Repr

def OutOfBounds.message (e : OutOfBounds P) : String :=
  "position " ++ Coord.text e.position ++ " is outside of [" ++ Coord.text e.low ++ ", " ++
    Coord.text e.high ++ "]"

def check (p low high : P) : Except (OutOfBounds P) Unit :=
  if Coord.within p low high then .ok () else .error ⟨p, low, high⟩

end VoxelServer
