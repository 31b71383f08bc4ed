import VoxelServer.Digest.ChaCha
import VoxelServer.Digest.SipHash
import VoxelServer.Particle.Effect
import VoxelServer.Wire.Error

/-!
# Drawing an effect

A client varies a particle through three floats and a `data` value alone, so what an effect
becomes depends on which of those it uses. Where nothing varies the client spreads the particles
itself; otherwise each is a message of its own.

* `PlacedEffect.expand`: the messages that draw an effect.

The spread of single particles comes from a seed made of the effect, so the same effect looks the
same to everyone.
-/

namespace VoxelServer

namespace PlacedEffect

/-- The highest pitch, two octaves up. -/
def maxNote : UInt8 := 24

/-- The number that stands for the item to show; zero stands for none. Block kinds have the data
above twelve bits of id. -/
def itemNumber (kind : ParticleKind) : ParticleOption → Int32
  | .item id data => if kind == .itemCrack then id else data <<< 12 ||| id
  | _ => 0

def share (part whole : Nat) : Single := Single.ofNat part / Single.ofNat whole

/-- The three floats that make the particles of an effect differ from the plain ones. All zero if
they do not. -/
def variation (kind : ParticleKind) (option : ParticleOption) :
    Except CodecError (Vec3 Single) :=
  match option with
  | .plain | .item _ _ => .ok .zeroSingle
  | .resized size =>
    if kind.defaultSize?.isNone then .error (.invalid (.notResizable kind))
    else if kind == .largeExplosion then
      -- the client shows large explosions at 1 - size / 2
      .ok ⟨-size * Single.ofNat 2 + Single.ofNat 2, .zero, .zero⟩
    else .ok ⟨size, .zero, .zero⟩
  | .colored color =>
    match kind.defaultColor? with
    | none => .error (.invalid (.notColorable kind))
    | some default =>
      if color == default then .ok .zeroSingle
      else
        let red := share color.r.toNat 255
        -- redstone takes a red of zero for its default
        let red := if red.isZero && kind == .redstone then ⟨0x3727C5AC⟩ else red
        .ok ⟨red, share color.g.toNat 255, share color.b.toNat 255⟩
  | .note pitch =>
    if !kind.takesNote then .error (.invalid (.withoutNote kind))
    else if pitch > maxNote then .error (.invalidValue "note" pitch.toNat)
    else .ok ⟨share pitch.toNat maxNote.toNat, .zero, .zero⟩
  | .motion direction =>
    if !kind.hasMotion then .error (.invalid (.withoutMotion kind))
    -- any vertical motion stops splashes moving at all
    else if kind == .waterSplash then .ok { direction with y := .zero }
    else .ok direction

/-- The seed of an effect's spread. -/
def seed (p : PlacedEffect) : UInt64 :=
  let position := [p.position.x, p.position.y, p.position.z]
  let offset := [p.effect.offset.x, p.effect.offset.y, p.effect.offset.z]
  SipHash.hash (Bytes.ofNatLE 8 p.effect.kind.ordinal ++
    Bytes.ofNatLE 4 p.effect.count.toUInt32.toNat ++
    position.flatMap (fun d => Bytes.ofNatLE 8 d.bits.toNat) ++
    offset.flatMap (fun s => Bytes.ofNatLE 4 s.bits.toNat))

/-- A number from 0 up to 1, of the top 24 bits of a word. -/
def fraction (word : UInt32) : Single :=
  Single.ofNat (word.toNat / 256) * ⟨0x33800000⟩

/-- A number from -1 up to 1 times a spread. -/
def jitter (word : UInt32) (spread : Single) : Single :=
  (fraction word * Single.ofNat 2 - .one) * spread

/-- Positions around `position`, three words for each. -/
def scatter (position offset : Vec3 Single) : (count : Nat) → List UInt32 → List (Vec3 Single)
  | count + 1, a :: b :: c :: words =>
    (position + ⟨jitter a offset.x, jitter b offset.y, jitter c offset.z⟩) ::
      scatter position offset count words
  | _, _ => []

/-- The positions of an effect's particles, all the same if it has no spread. -/
def positions (p : PlacedEffect) (count : Nat) : List (Vec3 Single) :=
  let position := p.position.map Double.toSingle
  if p.effect.offset.isZero then List.replicate count position
  else
    let words := ChaCha.words (ChaCha.keyOfSeed p.seed) (3 * count / 16 + 1)
    scatter position p.effect.offset count words

/-- The messages that draw an effect. -/
def expand (p : PlacedEffect) : Except CodecError (List SpawnParticle) :=
  let kind := p.effect.kind
  let number := itemNumber kind p.effect.option
  if p.effect.count ≤ 0 then .ok []
  else if kind.takesItem && number == 0 then .ok []
  else do
    let extra := if kind.takesItem then [number] else []
    let packet (position offset : Vec3 Single) (data : Single) (count : Int32) : SpawnParticle :=
      { particleId := kind.netId, longDistance := false, position, offset, data, count, extra }
    let values ← variation kind p.effect.option
    if values.isZero then
      return [packet (p.position.map Double.toSingle) p.effect.offset .zero p.effect.count]
    else
      return (p.positions p.effect.count.toInt.toNat).map fun place => packet place values .one 0

end PlacedEffect

end VoxelServer
