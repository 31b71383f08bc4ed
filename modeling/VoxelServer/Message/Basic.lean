import VoxelServer.GameMode
import VoxelServer.Item
import VoxelServer.Message.Type
import VoxelServer.Particle.Effect
import VoxelServer.Uuid

/-!
# Messages

Everything the two ends tell each other, and the two requests of game code that become other
messages on the way out.

* `Message`: one message.
* `Message.type`: what kind of message it is.
-/

namespace VoxelServer

/-- Opens a connection and says what it is for. -/
structure Handshake where
  protocolVersion : Int32
  address : String
  port : UInt16
  nextState : Int32
  deriving DecidableEq, Repr

structure ClientSettings where
  locale : String
  viewDistance : Int8
  chatMode : Int32
  chatColors : Bool
  skinParts : UInt8
  mainHand : Int32
  deriving DecidableEq, Repr

structure ClickWindow where
  windowId : UInt8
  slot : Int16
  button : Int8
  action : Int16
  mode : Int32
  item : Slot
  deriving Repr

structure CreativeInventoryAction where
  slot : Int16
  item : Slot
  deriving Repr

structure ConfirmTransaction where
  windowId : Int8
  action : Int16
  accepted : Bool
  deriving DecidableEq, Repr

/-- Traffic of a plugin channel. The data runs to the end of the message. -/
structure ChannelPayload where
  channel : String
  data : Bytes
  deriving DecidableEq, Repr

structure BlockBreakAnimation where
  entityId : Int32
  position : Vec3 Int32
  stage : Int32
  deriving DecidableEq, Repr

/-- Where a client shows a chat message. -/
inductive ChatKind
  | chat
  | system
  | actionBar
  deriving DecidableEq, Repr

structure ChatMessage where
  json : String
  kind : ChatKind
  deriving DecidableEq, Repr

structure SetSlot where
  windowId : Int8
  slot : Int16
  item : Slot
  deriving Repr

structure JoinGame where
  entityId : Int32
  gameMode : GameMode
  dimension : Int32
  difficulty : UInt8
  maxPlayers : UInt8
  levelType : String
  reducedDebugInfo : Bool
  deriving DecidableEq, Repr

/-- A yaw and a pitch. -/
structure Look where
  yaw : Single
  pitch : Single
  deriving DecidableEq, Repr

structure PlayerPositionAndLook where
  position : Vec3 Double
  look : Look
  /-- Bits set here make the matching field relative. -/
  flags : UInt8
  teleportId : Int32
  deriving DecidableEq, Repr

/-- A potion effect on an entity. -/
structure EntityEffect where
  entityId : Int32
  effectId : Int8
  amplifier : Int8
  duration : Int32
  ambient : Bool
  showParticles : Bool
  deriving DecidableEq, Repr

/-- The numbers of one registry of a modded game: names, replacements and names without use. -/
structure RegistryEntry where
  name : String
  ids : List (String × Int32)
  substitutions : List String
  dummied : List String
  deriving DecidableEq, Repr

inductive Message
  | handshake (m : Handshake)
  | statusRequest
  | statusResponse (json : String)
  | ping (payload : Int64)
  | loginStart (name : String)
  | loginSuccess (uuid : Uuid) (name : String)
  | setCompression (threshold : Int32)
  | particleEffect (m : PlacedEffect)
  | spawnParticle (m : SpawnParticle)
  | registryData (entries : List RegistryEntry)
  | teleportConfirm (teleportId : Int32)
  | incomingChat (message : String)
  | clientSettings (m : ClientSettings)
  | clickWindow (m : ClickWindow)
  | creativeInventoryAction (m : CreativeInventoryAction)
  | playerPosition (position : Vec3 Double) (onGround : Bool)
  | playerPositionRotation (position : Vec3 Double) (look : Look) (onGround : Bool)
  | playerRotation (look : Look) (onGround : Bool)
  | playerOnGround (onGround : Bool)
  | keepAlive (id : Int32)
  | confirmTransaction (m : ConfirmTransaction)
  | closeWindow (windowId : UInt8)
  | channelPayload (m : ChannelPayload)
  | blockBreakAnimation (m : BlockBreakAnimation)
  | chatMessage (m : ChatMessage)
  | setSlot (m : SetSlot)
  | joinGame (m : JoinGame)
  | playerPositionAndLook (m : PlayerPositionAndLook)
  | entityEffect (m : EntityEffect)
  | disconnect (reason : String)
  deriving Repr

namespace Message

def type : Message → MessageType
  | handshake _ => .handshake
  | statusRequest => .statusRequest
  | statusResponse _ => .statusResponse
  | ping _ => .ping
  | loginStart _ => .loginStart
  | loginSuccess _ _ => .loginSuccess
  | setCompression _ => .setCompression
  | particleEffect _ => .particleEffect
  | spawnParticle _ => .spawnParticle
  | registryData _ => .registryData
  | teleportConfirm _ => .teleportConfirm
  | incomingChat _ => .incomingChat
  | clientSettings _ => .clientSettings
  | clickWindow _ => .clickWindow
  | creativeInventoryAction _ => .creativeInventoryAction
  | playerPosition _ _ => .playerPosition
  | playerPositionRotation _ _ _ => .playerPositionRotation
  | playerRotation _ _ => .playerRotation
  | playerOnGround _ => .playerOnGround
  | keepAlive _ => .keepAlive
  | confirmTransaction _ => .confirmTransaction
  | closeWindow _ => .closeWindow
  | channelPayload _ => .channelPayload
  | blockBreakAnimation _ => .blockBreakAnimation
  | chatMessage _ => .chatMessage
  | setSlot _ => .setSlot
  | joinGame _ => .joinGame
  | playerPositionAndLook _ => .playerPositionAndLook
  | entityEffect _ => .entityEffect
  | disconnect _ => .disconnect

end Message

end VoxelServer
