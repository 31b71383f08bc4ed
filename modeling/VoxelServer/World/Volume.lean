import VoxelServer.World.Coord

/-!
# Volumes

A bounded region of cells: stored ones, and views of others that never copy a cell. A view is
part of its parent, its parent moved by a rigid map, or its parent without the right to write.

* `ArrayVolume`: a cell for every position of a box.
* `Volume`: arrays and chains of views over them.
* `Volume.locate`: where in the storage a position of a volume lies.
* `Volume.get`, `Volume.set`: access to a cell.
* `Volume.view`, `Volume.transform`, `Volume.relative`: further views. They fold into a view that
  is there already; `Volume.nestView` and `Volume.nestTransform` put a new one around it.
* `Volume.copy`: an array with the same cells.
-/

namespace VoxelServer

variable {P T : Type} [Coord P]

/-- Dense storage for every cell of a box. -/
structure ArrayVolume (P T : Type) where
  low : P
  high : P
  cells : Array T
  deriving DecidableEq, Repr

namespace ArrayVolume

/-- A box of default cells. No axis of `low` may be above `high`. -/
def new? [Inhabited T] (low high : P) : Except (OutOfBounds P) (ArrayVolume P T) := do
  check low low high
  return ⟨low, high, Array.replicate (Coord.count low high) default⟩

/-- The cell at a position of the box. -/
def cell [Inhabited T] (a : ArrayVolume P T) (p : P) : T :=
  a.cells.getD (Coord.index a.low a.high p) default

/-- Another cell at a position of the box. -/
def withCell (a : ArrayVolume P T) (p : P) (cell : T) : ArrayVolume P T :=
  { a with cells := a.cells.setIfInBounds (Coord.index a.low a.high p) cell }

end ArrayVolume

inductive Volume (P T : Type) [Coord P]
  | array (storage : ArrayVolume P T)
  /-- Storage that nobody can change any more. -/
  | frozen (storage : ArrayVolume P T)
  | readOnly (parent : Volume P T)
  /-- Part of the parent, in the parent's coordinates. -/
  | downsize (parent : Volume P T) (low high : P)
  /-- The parent, or part of it, moved by a rigid map. -/
  | transformed (parent : Volume P T) (transform : Coord.Transform P) (low high : P)

/-- Why a cell could not be written. -/
inductive WriteError (P : Type)
  | readOnly
  | outOfBounds (e : OutOfBounds P)
  deriving DecidableEq, Repr

namespace Volume

def low : Volume P T → P
  | array a | frozen a => a.low
  | readOnly parent => parent.low
  | downsize _ low _ | transformed _ _ low _ => low

def high : Volume P T → P
  | array a | frozen a => a.high
  | readOnly parent => parent.high
  | downsize _ _ high | transformed _ _ _ high => high

def size (v : Volume P T) : P := v.high - v.low + Coord.unit

def contains (v : Volume P T) (p : P) : Bool := Coord.within p v.low v.high

def positions (v : Volume P T) : List P := Coord.positions v.low v.high

def isWritable : Volume P T → Bool
  | array _ => true
  | frozen _ | readOnly _ => false
  | downsize parent _ _ | transformed parent _ _ _ => parent.isWritable

/-- The array at the end of a chain of views. -/
def storage : Volume P T → ArrayVolume P T
  | array a | frozen a => a
  | readOnly parent | downsize parent _ _ | transformed parent _ _ _ => parent.storage

/-- Changes the array at the end of a chain of views. -/
def mapStorage (f : ArrayVolume P T → ArrayVolume P T) : Volume P T → Volume P T
  | array a => array (f a)
  | frozen a => frozen (f a)
  | readOnly parent => readOnly (parent.mapStorage f)
  | downsize parent low high => downsize (parent.mapStorage f) low high
  | transformed parent t low high => transformed (parent.mapStorage f) t low high

/-- The position in the storage of a position in a volume. Every view on the way checks it. -/
def locate : Volume P T → P → Except (OutOfBounds P) P
  | array a, p | frozen a, p => do
    check p a.low a.high
    return p
  | readOnly parent, p => parent.locate p
  | downsize parent low high, p => do
    check p low high
    parent.locate p
  | transformed parent t low high, p => do
    check p low high
    parent.locate (Coord.apply (Coord.invert t) p)

def get [Inhabited T] (v : Volume P T) (p : P) : Except (OutOfBounds P) T :=
  v.storage.cell <$> v.locate p

/-- The position in the storage that a write changes, unless something in the chain of views
forbids it. -/
def target (v : Volume P T) (p : P) : Except (WriteError P) P :=
  if v.isWritable then
    match v.locate p with
    | .ok q => .ok q
    | .error e => .error (.outOfBounds e)
  else .error .readOnly

def set (v : Volume P T) (p : P) (cell : T) : Except (WriteError P) (Volume P T) := do
  let q ← v.target p
  return v.mapStorage (·.withCell q cell)

/-- Whether `[low, high]` is a box inside of `v`. -/
def checkBox (v : Volume P T) (low high : P) : Except (OutOfBounds P) Unit := do
  check low v.low v.high
  check high low v.high

/-- A part of a volume, as a view around it. -/
def nestView (v : Volume P T) (low high : P) : Except (OutOfBounds P) (Volume P T) := do
  v.checkBox low high
  return downsize v low high

/-- A part of a volume. Parts and moved volumes are narrowed in place. -/
def view (v : Volume P T) (low high : P) : Except (OutOfBounds P) (Volume P T) := do
  v.checkBox low high
  match v with
  | downsize parent _ _ => return downsize parent low high
  | transformed parent t _ _ => return transformed parent t low high
  | v => return downsize v low high

/-- The image of a box under a rigid map, by its corners. -/
def imageBox (t : Coord.Transform P) (low high : P) : P × P :=
  let a := Coord.apply t low
  let b := Coord.apply t high
  (min a b, max a b)

/-- A volume moved by a rigid map, as a view around it. -/
def nestTransform (v : Volume P T) (t : Coord.Transform P) : Volume P T :=
  let (low, high) := imageBox t v.low v.high
  transformed v t low high

/-- A volume moved by a rigid map. One that is moved already is moved further in place. -/
def transform (v : Volume P T) (t : Coord.Transform P) : Volume P T :=
  match v with
  | transformed parent s low high =>
    let (low, high) := imageBox t low high
    transformed parent (Coord.andThen s t) low high
  | v => v.nestTransform t

/-- A volume moved so that it starts at the origin. -/
def relative (v : Volume P T) : Volume P T :=
  v.transform (Coord.shift (Coord.origin - v.low))

/-- What a part or a moved volume is a view of. -/
def parent? : Volume P T → Option (Volume P T)
  | downsize parent _ _ | transformed parent _ _ _ => some parent
  | _ => none

/-- An array with the cells of a volume. -/
def copy [Inhabited T] (v : Volume P T) : ArrayVolume P T where
  low := v.low
  high := v.high
  cells := (v.positions.map fun p => (v.get p).toOption.getD default).toArray

/-- The cells of storage that nothing else is in front of. -/
def cells? : Volume P T → Option (Array T)
  | array a | frozen a => some a.cells
  | _ => none

end Volume

end VoxelServer
