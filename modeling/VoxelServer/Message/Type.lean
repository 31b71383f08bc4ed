/-!
# Message types

The closed list of messages the two ends exchange, with the names that error texts and answers
give them.
-/

namespace VoxelServer

inductive MessageType
  | handshake
  | statusRequest
  | statusResponse
  | ping
  | loginStart
  | loginSuccess
  | setCompression
  | particleEffect
  | spawnParticle
  | registryData
  | teleportConfirm
  | incomingChat
  | clientSettings
  | clickWindow
  | creativeInventoryAction
  | playerPosition
  | playerPositionRotation
  | playerRotation
  | playerOnGround
  | keepAlive
  | confirmTransaction
  | closeWindow
  | channelPayload
  | blockBreakAnimation
  | chatMessage
  | setSlot
  | joinGame
  | playerPositionAndLook
  | entityEffect
  | disconnect
  deriving DecidableEq, Repr, Inhabited

namespace MessageType

def all : List MessageType :=
  [handshake, statusRequest, statusResponse, ping, loginStart, loginSuccess, setCompression,
    particleEffect, spawnParticle, registryData, teleportConfirm, incomingChat, clientSettings,
    clickWindow, creativeInventoryAction, playerPosition, playerPositionRotation, playerRotation,
    playerOnGround, keepAlive, confirmTransaction, closeWindow, channelPayload,
    blockBreakAnimation, chatMessage, setSlot, joinGame, playerPositionAndLook, entityEffect,
    disconnect]

def name : MessageType → String
  | handshake => "Handshake"
  | statusRequest => "StatusRequest"
  | statusResponse => "StatusResponse"
  | ping => "Ping"
  | loginStart => "LoginStart"
  | loginSuccess => "LoginSuccess"
  | setCompression => "SetCompression"
  | particleEffect => "ParticleEffectMessage"
  | spawnParticle => "SpawnParticle"
  | registryData => "RegistryData"
  | teleportConfirm => "TeleportConfirm"
  | incomingChat => "IncomingChat"
  | clientSettings => "ClientSettings"
  | clickWindow => "ClickWindow"
  | creativeInventoryAction => "CreativeInventoryAction"
  | playerPosition => "PlayerPosition"
  | playerPositionRotation => "PlayerPositionRotation"
  | playerRotation => "PlayerRotation"
  | playerOnGround => "PlayerOnGround"
  | keepAlive => "KeepAlive"
  | confirmTransaction => "ConfirmTransaction"
  | closeWindow => "CloseWindow"
  | channelPayload => "ChannelPayload"
  | blockBreakAnimation => "BlockBreakAnimation"
  | chatMessage => "ChatMessage"
  | setSlot => "SetSlot"
  | joinGame => "JoinGame"
  | playerPositionAndLook => "PlayerPositionAndLook"
  | entityEffect => "EntityEffect"
  | disconnect => "Disconnect"

/-- The part of the protocol a message type belongs to, as a path with its separators. -/
def family : MessageType → String
  | handshake => "handshake::"
  | statusRequest | statusResponse | ping => "status::"
  | loginStart | loginSuccess | setCompression => "login::"
  | particleEffect | spawnParticle => "particle::"
  | registryData => "forge::"
  | disconnect => ""
  | _ => "play::"

/-- The full name that error texts use. -/
def path (type : MessageType) : String :=
  "cubeserv::network::vanilla::" ++ type.family ++ type.name

end MessageType

end VoxelServer
