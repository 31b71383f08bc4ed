import VoxelServer.Binary
import VoxelServer.Particle.Kind
import VoxelServer.Vec

/-!
# Particle effects

What game code asks for: a kind of particle, how many, spread how far, and an option that only
some kinds have.

* `ParticleEffect`: the request; `ParticleEffect.ofKind` has the kind's own option.
* `SpawnParticle`: the message a client draws particles from.
-/

namespace VoxelServer

structure Color where
  r : UInt8
  g : UInt8
  b : UInt8
  deriving DecidableEq, Repr, Inhabited

/-- What an effect carries beyond its kind. Which option makes sense depends on the kind. -/
inductive ParticleOption
  | plain
  | motion (direction : Vec3 Single)
  | resized (size : Single)
  | colored (color : Color)
  /-- A pitch, from 0 to 24. -/
  | note (pitch : UInt8)
  /-- The item to show. Kinds that look like a block take the id of its type. -/
  | item (id data : Int32)
  deriving DecidableEq, Repr, Inhabited

namespace ParticleKind

/-- The color a client uses when none is given. -/
def defaultColor? : ParticleKind → Option Color
  | redstone => some ⟨255, 0, 0⟩
  | mobSpell | ambientMobSpell => some ⟨0, 0, 0⟩
  | _ => none

def defaultSize? : ParticleKind → Option Single
  | largeExplosion | sweepAttack => some .one
  | _ => none

end ParticleKind

def Vec3.zeroSingle : Vec3 Single := ⟨.zero, .zero, .zero⟩

/-- Nothing but zeros, of either sign. -/
def Vec3.isZero (v : Vec3 Single) : Bool := v.x.isZero && v.y.isZero && v.z.isZero

structure ParticleEffect where
  kind : ParticleKind
  /-- Spread of the positions, per axis. -/
  offset : Vec3 Single
  count : Int32
  option : ParticleOption
  deriving DecidableEq, Repr, Inhabited

namespace ParticleEffect

def defaultOption (kind : ParticleKind) : ParticleOption :=
  match kind.defaultColor?, kind.defaultSize? with
  | some color, _ => .colored color
  | none, some size => .resized size
  | none, none =>
    if kind.takesNote then .note 0
    else if kind.hasMotion then .motion .zeroSingle
    else .plain

/-- A single particle with the kind's own option. -/
def ofKind (kind : ParticleKind) : ParticleEffect where
  kind := kind
  offset := .zeroSingle
  count := 1
  option := defaultOption kind

end ParticleEffect

/-- An effect at a place. -/
structure PlacedEffect where
  effect : ParticleEffect
  position : Vec3 Double
  deriving DecidableEq, Repr, Inhabited

/-- One draw order for the client. It spreads `count` particles over `offset`; without a count it
draws one that moves, or looks, as `offset` times `data` says. -/
structure SpawnParticle where
  particleId : Int32
  longDistance : Bool
  position : Vec3 Single
  offset : Vec3 Single
  data : Single
  count : Int32
  extra : List Int32
  deriving DecidableEq, Repr, Inhabited

end VoxelServer
