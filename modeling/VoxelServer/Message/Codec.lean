import VoxelServer.Message.Basic
import VoxelServer.Wire.BlockPosition
import VoxelServer.Wire.Composite
import VoxelServer.Wire.Slot
import VoxelServer.Wire.Text

/-!
# Messages as bytes

The body of each message behind its opcode: its fields one after the other. Messages of clients
can be read, messages of the server written, and a few go both ways. What follows the last field
of a message that is read is ignored.

* `Message.encodeBody`: writes a message.
* `MessageType.body`: reads one.
* `MessageType.isCaching`: whether a message looks the same to everyone.
-/

namespace VoxelServer

/-- The longest address in a handshake, with room for the mark of a modded client. -/
def maxAddressLength : Nat := 260

def maxNameLength : Nat := 16

def maxLocaleLength : Nat := 16

def maxChatLength : Nat := 256

def maxChannelLength : Nat := 20

/-- The most data a client may send on a plugin channel. -/
def maxPayloadLength : Nat := 32767

/-- The most data the server sends on one. -/
def maxSentPayloadLength : Nat := maxPayloadLength * 32

def ChatKind.netId : ChatKind → UInt8
  | chat => 0
  | system => 1
  | actionBar => 2

/-- The stage of a crack, from 0 to 9. Any other number takes the crack away. -/
def crackStage (stage : Int32) : Int8 :=
  if 0 ≤ stage && stage ≤ 9 then stage.toInt8 else 10

def EntityEffect.flags (m : EntityEffect) : UInt8 :=
  (if m.ambient then 1 else 0) ||| (if m.showParticles then 2 else 0)

instance : Wire Look where
  encode l := Wire.encode l.yaw ++ Wire.encode l.pitch
  decode := do
    let yaw ← Wire.decode
    let pitch ← Wire.decode
    return ⟨yaw, pitch⟩

namespace Message

/-- A number of variable length. -/
def varInt (n : Int32) : Bytes := Wire.encode (VarInt.mk n)

/-- The fields of a message. -/
def encodeBody : Message → Except CodecError Bytes
  | statusResponse json => .ok (Wire.encode json)
  | ping payload => .ok (Wire.encode payload)
  | loginSuccess uuid name => .ok (Wire.encode (uuid.hyphenated, name))
  | setCompression threshold => .ok (varInt threshold)
  | spawnParticle m => .ok <|
      Wire.encode (m.particleId, m.longDistance, m.position, m.offset, m.data, m.count) ++
        m.extra.flatMap varInt
  | keepAlive id => .ok (varInt id)
  | confirmTransaction m => .ok (Wire.encode (m.windowId, m.action, m.accepted))
  | closeWindow windowId => .ok (Wire.encode windowId)
  | channelPayload m =>
    if m.data.length > maxSentPayloadLength then
      .error (.tooLong m.data.length maxSentPayloadLength)
    else .ok (Wire.encode m.channel ++ m.data)
  | blockBreakAnimation m => .ok <|
      varInt m.entityId ++ Wire.encode (BlockPosition.mk m.position) ++
        Wire.encode (crackStage m.stage)
  | chatMessage m => .ok (Wire.encode (m.json, m.kind.netId))
  | setSlot m => .ok (Wire.encode (m.windowId, m.slot, WireSlot.mk m.item))
  | joinGame m => .ok <| Wire.encode
      (m.entityId, m.gameMode.netId, m.dimension, m.difficulty, m.maxPlayers, m.levelType,
        m.reducedDebugInfo)
  | playerPositionAndLook m => .ok <|
      Wire.encode (m.position, m.look, m.flags, VarInt.mk m.teleportId)
  | entityEffect m => .ok <| Wire.encode
      (VarInt.mk m.entityId, m.effectId, m.amplifier, VarInt.mk m.duration, m.flags)
  | disconnect reason => .ok (Wire.encode reason)
  | particleEffect _ => .error (.invalid (.noCodec .particleEffect))
  | registryData _ => .error (.invalid (.noCodec .registryData))
  | m => .error (.invalid (.neverSent m.type))

end Message

namespace MessageType

/-- Reads a number of variable length. -/
def varInt : Decoder Int32 := VarInt.value <$> Wire.decode

/-- Reads a slot. -/
def slot : Decoder Slot := decodeSlot

/-- Reads a message of this type. -/
def body : MessageType → Decoder Message
  | handshake => do
    let protocolVersion ← varInt
    let address ← textUpTo maxAddressLength
    let port ← Wire.decode
    let nextState ← varInt
    return .handshake { protocolVersion, address, port, nextState }
  | statusRequest => return .statusRequest
  | ping => do return .ping (← Wire.decode)
  | loginStart => do return .loginStart (← textUpTo maxNameLength)
  | teleportConfirm => do return .teleportConfirm (← varInt)
  | incomingChat => do return .incomingChat (← textUpTo maxChatLength)
  | clientSettings => do
    let locale ← textUpTo maxLocaleLength
    let viewDistance ← Wire.decode
    let chatMode ← varInt
    let chatColors ← Wire.decode
    let skinParts ← Wire.decode
    let mainHand ← varInt
    return .clientSettings { locale, viewDistance, chatMode, chatColors, skinParts, mainHand }
  | clickWindow => do
    let windowId ← Wire.decode
    let slotNumber ← Wire.decode
    let button ← Wire.decode
    let action ← Wire.decode
    let mode ← varInt
    let item ← slot
    return .clickWindow { windowId, slot := slotNumber, button, action, mode, item }
  | creativeInventoryAction => do
    let slotNumber ← Wire.decode
    let item ← slot
    return .creativeInventoryAction { slot := slotNumber, item }
  | playerPosition => do
    let position ← Wire.decode
    let onGround ← Wire.decode
    return .playerPosition position onGround
  | playerPositionRotation => do
    let position ← Wire.decode
    let look ← Wire.decode
    let onGround ← Wire.decode
    return .playerPositionRotation position look onGround
  | playerRotation => do
    let look ← Wire.decode
    let onGround ← Wire.decode
    return .playerRotation look onGround
  | playerOnGround => do return .playerOnGround (← Wire.decode)
  | keepAlive => do return .keepAlive (← varInt)
  | confirmTransaction => do
    let windowId ← Wire.decode
    let action ← Wire.decode
    let accepted ← Wire.decode
    return .confirmTransaction { windowId, action, accepted }
  | closeWindow => do return .closeWindow (← Wire.decode)
  | channelPayload => do
    let channel ← textUpTo maxChannelLength
    let data ← takeRest
    if data.length > maxPayloadLength then throw (.tooLong data.length maxPayloadLength)
    else return .channelPayload { channel, data }
  | type => throw (.decodeUnsupported type)

/-- The messages that look the same to every client, so that one encoding does for all. -/
def isCaching : MessageType → Bool
  | blockBreakAnimation | chatMessage | spawnParticle => true
  | _ => false

end MessageType

end VoxelServer
