/-!
# Kinds of particles

The forty-seven particles a client can draw, numbered in this order on the wire, and what each
of them can be told beyond its place.
-/

namespace VoxelServer

inductive ParticleKind
  | explosion
  | largeExplosion
  | hugeExplosion
  | fireworksSpark
  | waterBubble
  | waterSplash
  | waterWake
  | suspended
  | suspendedDepth
  | crit
  | magicCrit
  | smoke
  | largeSmoke
  | spell
  | instantSpell
  | mobSpell
  | ambientMobSpell
  | witchSpell
  | dripWater
  | dripLava
  | angryVillager
  | happyVillager
  | townAura
  | note
  | portal
  | enchantmentTable
  | flame
  | lava
  | footstep
  | cloud
  | redstone
  | snowball
  | snowShovel
  | slime
  | heart
  | barrier
  | itemCrack
  | blockCrack
  | blockDust
  | waterDrop
  | itemTake
  | mobAppearance
  | dragonBreath
  | endRod
  | damageIndicator
  | sweepAttack
  | fallingDust
  deriving DecidableEq, Repr, Inhabited

namespace ParticleKind

def all : List ParticleKind :=
  [explosion, largeExplosion, hugeExplosion, fireworksSpark, waterBubble, waterSplash,
    waterWake, suspended, suspendedDepth, crit, magicCrit, smoke, largeSmoke, spell,
    instantSpell, mobSpell, ambientMobSpell, witchSpell, dripWater, dripLava,
    angryVillager, happyVillager, townAura, note, portal, enchantmentTable, flame, lava,
    footstep, cloud, redstone, snowball, snowShovel, slime, heart, barrier, itemCrack,
    blockCrack, blockDust, waterDrop, itemTake, mobAppearance, dragonBreath, endRod,
    damageIndicator, sweepAttack, fallingDust]

def name : ParticleKind → String
  | explosion => "Explosion"
  | largeExplosion => "LargeExplosion"
  | hugeExplosion => "HugeExplosion"
  | fireworksSpark => "FireworksSpark"
  | waterBubble => "WaterBubble"
  | waterSplash => "WaterSplash"
  | waterWake => "WaterWake"
  | suspended => "Suspended"
  | suspendedDepth => "SuspendedDepth"
  | crit => "Crit"
  | magicCrit => "MagicCrit"
  | smoke => "Smoke"
  | largeSmoke => "LargeSmoke"
  | spell => "Spell"
  | instantSpell => "InstantSpell"
  | mobSpell => "MobSpell"
  | ambientMobSpell => "AmbientMobSpell"
  | witchSpell => "WitchSpell"
  | dripWater => "DripWater"
  | dripLava => "DripLava"
  | angryVillager => "AngryVillager"
  | happyVillager => "HappyVillager"
  | townAura => "TownAura"
  | note => "Note"
  | portal => "Portal"
  | enchantmentTable => "EnchantmentTable"
  | flame => "Flame"
  | lava => "Lava"
  | footstep => "Footstep"
  | cloud => "Cloud"
  | redstone => "Redstone"
  | snowball => "Snowball"
  | snowShovel => "SnowShovel"
  | slime => "Slime"
  | heart => "Heart"
  | barrier => "Barrier"
  | itemCrack => "ItemCrack"
  | blockCrack => "BlockCrack"
  | blockDust => "BlockDust"
  | waterDrop => "WaterDrop"
  | itemTake => "ItemTake"
  | mobAppearance => "MobAppearance"
  | dragonBreath => "DragonBreath"
  | endRod => "EndRod"
  | damageIndicator => "DamageIndicator"
  | sweepAttack => "SweepAttack"
  | fallingDust => "FallingDust"

/-- The kind's place in the list of kinds. -/
def ordinal (kind : ParticleKind) : Nat := kind.ctorIdx

def netId (kind : ParticleKind) : Int32 := Int32.ofNat kind.ordinal

/-- The kinds that fly off in a given direction. -/
def hasMotion : ParticleKind → Bool
  | explosion | fireworksSpark | waterBubble | waterSplash | waterWake | crit | magicCrit
  | smoke | largeSmoke | spell | instantSpell | portal | enchantmentTable | flame | cloud
  | snowShovel | dragonBreath | endRod | damageIndicator | itemCrack | blockCrack
  | blockDust => true
  | _ => false

/-- The kinds that look like an item or a block. -/
def takesItem : ParticleKind → Bool
  | itemCrack | blockCrack | blockDust | fallingDust => true
  | _ => false

/-- Only notes have a pitch. -/
def takesNote : ParticleKind → Bool
  | note => true
  | _ => false

end ParticleKind

end VoxelServer
