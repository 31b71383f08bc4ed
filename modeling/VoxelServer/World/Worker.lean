import VoxelServer.World.Volume

/-!
# Work on all cells of a volume

Reading and writing every cell of a volume, in the order of storage. Writing goes through a
program whose state is the volume being written, so what was written before a failure stays
written.

* `Volume.iterate`, `Volume.reduce`: reading.
* `VolumeWriter`: programs that write a volume.
* `VolumeWriter.fill`, `VolumeWriter.mapInPlace`: change every cell.
* `VolumeWriter.mapFrom`, `VolumeWriter.mergeFrom`: write the cells of other volumes.
-/

namespace VoxelServer

variable {P S T U A : Type} [Coord P]

/-- Folds over all cells with their positions. -/
def Volume.reduce [Inhabited T] (v : Volume P T) (init : A) (f : A → P → T → A) :
    Except (OutOfBounds P) A :=
  v.positions.foldlM (fun acc p => do return f acc p (← v.get p)) init

/-- All cells with their positions. -/
def Volume.iterate [Inhabited T] (v : Volume P T) : Except (OutOfBounds P) (List (P × T)) :=
  v.positions.mapM fun p => do return (p, ← v.get p)

/-- Whether every position of `v` lies in `[low, high]`. -/
def Volume.covered (v : Volume P T) (low high : P) : Except (OutOfBounds P) Unit := do
  check v.low low high
  check v.high low high

/-- Programs that write a volume and may fail on the way. -/
abbrev VolumeWriter (P T : Type) [Coord P] := ExceptT (WriteError P) (StateM (Volume P T))

namespace VolumeWriter

/-- What a read finds, or the failure it runs into. -/
def ofExcept (result : Except (OutOfBounds P) A) : VolumeWriter P T A :=
  match result with
  | .ok a => return a
  | .error e => throw (.outOfBounds e)

/-- Writes a cell. -/
def put (p : P) (cell : T) : VolumeWriter P T Unit := ExceptT.mk fun v =>
  match v.target p with
  | .ok q => (.ok (), v.mapStorage (·.withCell q cell))
  | .error e => (.error e, v)

/-- Gives every cell a value by its position. -/
def fill (f : P → T) : VolumeWriter P T Unit := do
  let v ← get
  v.positions.forM fun p => put p (f p)

/-- Replaces every cell. -/
def mapInPlace [Inhabited T] (f : P → T → T) : VolumeWriter P T Unit := do
  let v ← get
  v.positions.forM fun p => do
    let v ← get
    put p (f p (← ofExcept (v.get p)))

/-- Writes a value for every cell of `v`, all of whose positions must be there. -/
def mapFrom [Inhabited S] (v : Volume P S) (f : P → S → T) : VolumeWriter P T Unit := do
  let dest ← get
  ofExcept (v.covered dest.low dest.high)
  v.positions.forM fun p => do
    put p (f p (← ofExcept (v.get p)))

/-- Writes a value for every pair of cells of `v` and `other`. -/
def mergeFrom [Inhabited S] [Inhabited U] (v : Volume P S) (other : Volume P U)
    (f : P → S → U → T) : VolumeWriter P T Unit := do
  ofExcept (v.covered other.low other.high)
  let dest ← get
  ofExcept (v.covered dest.low dest.high)
  v.positions.forM fun p => do
    let cell ← ofExcept (v.get p)
    put p (f p cell (← ofExcept (other.get p)))

end VolumeWriter

end VoxelServer
