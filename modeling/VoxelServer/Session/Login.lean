import VoxelServer.Digest.Md5
import VoxelServer.Session.Hosted

/-!
# Logging in

A client that wants to play says its player's name. The server refuses it or answers with the
compression, the player's identity, and where in the game they are.

* `Uuid.ofOfflineName`: the identity of a player without an account.
* `handleLoginStart`: the whole login.
-/

namespace VoxelServer

/-- The identity of a player without an account depends on the name alone: its digest, marked as
one of a name. -/
def Uuid.ofOfflineName (name : String) : Uuid :=
  let digest := Md5.digest (Utf8.encode ("OfflinePlayer:" ++ name))
  let version (b : UInt8) : UInt8 := b &&& 0x0F ||| 0x30
  let variant (b : UInt8) : UInt8 := b &&& 0x3F ||| 0x80
  .ofBytes ((digest.modify 6 version).modify 8 variant)

/-- Letters, digits and underscores of ASCII, at least one of them. -/
def isPlayerName (name : String) : Bool :=
  !name.isEmpty && name.toList.all fun c => c.isAlphanum || c == '_'

/-- The most players a client can be told of. -/
def maxShownPlayers : Nat := 255

/-- Tells a player which part of the game they are in. -/
def Player.joinGame (player : Player) (config : Config) : Message :=
  .joinGame
    { entityId := player.entityId
      gameMode := player.gameMode
      dimension := 0
      difficulty := 1
      maxPlayers := UInt8.ofNat (min config.maxPlayers maxShownPlayers)
      levelType := "default"
      reducedDebugInfo := false }

/-- Tells a player where they are. -/
def Player.placement (player : Player) : Message :=
  .playerPositionAndLook
    { position := player.position, look := player.look, flags := 0, teleportId := 1 }

/-- Makes a player of a session whose client may play. -/
def welcome (name : String) (uuid : Uuid) : SessionM Unit := do
  let (entityId, server) := (← get).server.takeEntityId
  SessionM.modifyServer fun _ => server
  let player := Player.new name uuid entityId (← get).session.now
  modify (·.join player)
  SessionM.send (player.joinGame server.config)
  SessionM.send player.placement
  SessionM.modifyServer (·.postJoin ⟨name, uuid, entityId⟩)

/-- A full server is noticed before a bad name. -/
def handleLoginStart (name : String) : SessionM Unit := do
  let server := (← get).server
  if server.isFull then SessionM.kick "The server is full!"
  else if !isPlayerName name then SessionM.kick "Invalid username"
  else
    let uuid := Uuid.ofOfflineName name
    let threshold := server.config.compressionThreshold
    if 0 ≤ threshold then SessionM.setCompression threshold
    SessionM.send (.loginSuccess uuid name)
    SessionM.setState .play
    welcome name uuid

end VoxelServer
