import VoxelServer.Json.Value
import VoxelServer.Session.Hosted

/-!
# Handshake and status

A client opens a connection with a handshake that says whether it wants the server's status or to
play. The status is a JSON text, and a ping that is echoed and closes the connection.

* `Handshake.handle`: moves to the state a client asks for.
* `Hosted.statusText`, `handleStatusRequest`, `handlePing`.
-/

namespace VoxelServer

/-- What the address in a handshake holds if the client is modded. -/
def moddedMark : List Char := "\x00FML\x00".toList

/-- Whether a mark is somewhere in a text. -/
def occursIn (mark : List Char) : List Char → Bool
  | [] => mark.isEmpty
  | c :: rest => mark.isPrefixOf (c :: rest) || occursIn mark rest

def Handshake.isModded (m : Handshake) : Bool := occursIn moddedMark m.address.toList

/-- The name of the version that is spoken here. -/
def versionName : String := "1.10.2"

/-- What a client of another version is told. -/
def versionReason (clientVersion : Int32) : String :=
  let whose := if clientVersion < spokenVersion then "client" else "server"
  "Outdated " ++ whose ++ "! I'm still on " ++ versionName

/-- Moves to the state the client asks for. Only a client of the right version may log in. -/
def Handshake.handle (m : Handshake) : SessionM Unit := do
  match ProtocolState.ofHandshake? m.nextState with
  | none => SessionM.refuse (.invalidValue "next state" m.nextState.toInt)
  | some next =>
    SessionM.modifySession fun s =>
      { s with ctx := { protocolVersion := m.protocolVersion, forge := m.isModded } }
    SessionM.setState next
    if next = .login && m.protocolVersion != spokenVersion then
      SessionM.kick (versionReason m.protocolVersion)

/-- The status of the server, as one of its sessions tells it. Modded clients look for a list of
mods. -/
def Hosted.status (h : Hosted) : Json :=
  let config := h.server.config
  let mods := Json.record [("modList", .array []), ("type", .text "FML")]
  .record <|
    [("description", .record [("text", .text config.motd)])] ++
    (if h.session.ctx.forge then [("modinfo", mods)] else []) ++
    [("players", .record
      [("max", .integer config.maxPlayers), ("online", .integer h.server.online),
        ("sample", .array [])]),
      ("version", .record
        [("name", .text versionName), ("protocol", .integer spokenVersion.toInt)])]

def Hosted.statusText (h : Hosted) : String := h.status.compact

def handleStatusRequest : SessionM Unit := do
  SessionM.send (.statusResponse (← get).statusText)

/-- Echoes a ping. Nothing follows it. -/
def handlePing (payload : Int64) : SessionM Unit := do
  SessionM.send (.ping payload)
  SessionM.modifySession Session.close

end VoxelServer
