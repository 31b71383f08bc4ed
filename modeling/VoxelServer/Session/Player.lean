import VoxelServer.Config
import VoxelServer.Inventory.Basic
import VoxelServer.Message.Basic

/-!
# Players

A player who is logged in, as far as their connection is concerned.

* `Player`: the type; `Player.new` is a player who has just joined.
* `Liveness`: whether the client still answers, counted in ticks;
* `Config.patience`: how long that may take.
-/

namespace VoxelServer

/-- For how long a client may be silent: an interval until the next keep-alive goes out, and then
the timeout to answer it. This is a sum of 64-bit words, and wraps around. -/
def Config.patience (config : Config) : Nat :=
  (config.keepAliveInterval + config.keepAliveTimeout) % UInt64.size

/-- The exchange of keep-alives with a client. -/
structure Liveness where
  lastSent : Nat
  /-- The keep-alive that is not answered yet. -/
  pending : Option Int32
  /-- When the last answer came. -/
  lastAnswer : Nat
  deriving DecidableEq, Repr, Inhabited

namespace Liveness

/-- A client that has just been heard of. -/
def start (now : Nat) : Liveness := ⟨now, none, now⟩

/-- Whether the client has been silent for too long. -/
def isOverdue (l : Liveness) (config : Config) (now : Nat) : Bool :=
  now - l.lastAnswer > config.patience

/-- Whether it is time for another keep-alive. -/
def isDue (l : Liveness) (config : Config) (now : Nat) : Bool :=
  now - l.lastSent ≥ config.keepAliveInterval && l.pending.isNone

/-- A keep-alive has been sent. -/
def sent (l : Liveness) (id : Int32) (now : Nat) : Liveness :=
  { l with lastSent := now, pending := some id }

/-- An answer has come. Only that to the open keep-alive counts. -/
def answered (l : Liveness) (id : Int32) (now : Nat) : Liveness :=
  if l.pending = some id then { l with pending := none, lastAnswer := now } else l

end Liveness

structure Player where
  name : String
  uuid : Uuid
  entityId : Int32
  gameMode : GameMode
  position : Vec3 Double
  look : Look
  onGround : Bool
  viewDistance : UInt8
  inventory : Inventory
  liveness : Liveness

namespace Player

/-- The number 64. -/
def spawnHeight : Double := ⟨0x4050000000000000⟩

/-- Where players start. -/
def spawn : Vec3 Double := ⟨.zero, spawnHeight, .zero⟩

def new (name : String) (uuid : Uuid) (entityId : Int32) (now : Nat) : Player where
  name := name
  uuid := uuid
  entityId := entityId
  gameMode := .survival
  position := spawn
  look := ⟨.zero, .zero⟩
  onGround := false
  viewDistance := 8
  inventory := .empty
  liveness := .start now

end Player

end VoxelServer
