import VoxelServer.Server.Basic
import VoxelServer.Session.Basic

/-!
# Sessions at a server

Handlers of messages act on a session and on the server it belongs to, and may end the session.
What a handler did before it failed stays done.

* `Disconnection`: why a session ends.
* `SessionM`: the programs that handlers are, over a `Hosted` session.
* `Handler`: a handler of one type of message.
-/

namespace VoxelServer

/-- Why a session ends. -/
inductive Disconnection
  | codec (error : CodecError)
  | kicked (reason : String)
  deriving DecidableEq, Repr

namespace Disconnection

def message : Disconnection → String
  | codec error => error.message
  | kicked reason => "kicked: " ++ reason

/-- What the client is told. -/
def reason : Disconnection → String
  | codec error => error.message
  | kicked reason => reason

end Disconnection

structure Hosted where
  session : Session
  server : Server

namespace Hosted

/-- The session has a player from now on. One that had a player before gets another one. -/
def join (h : Hosted) (player : Player) : Hosted where
  session := { h.session with player := some player }
  server := if h.session.player.isNone then h.server.joined else h.server

/-- The server once the session is gone. -/
def leave (h : Hosted) : Server :=
  if h.session.player.isSome then h.server.left else h.server

end Hosted

/-- A program of a handler, which knows what can be sent. -/
abbrev SessionM := ReaderT (PerState OutboundRegistry) (ExceptT Disconnection (StateM Hosted))

abbrev Handler := Message → SessionM Unit

namespace SessionM

def kick (reason : String) : SessionM Unit := throw (.kicked reason)

def refuse {α : Type} (e : CodecError) : SessionM α := throw (.codec e)

def modifySession (f : Session → Session) : SessionM Unit :=
  modify fun h => { h with session := f h.session }

def modifyServer (f : Server → Server) : SessionM Unit :=
  modify fun h => { h with server := f h.server }

def modifyPlayer (f : Player → Player) : SessionM Unit :=
  modifySession fun s => { s with player := s.player.map f }

/-- Changes the session, if it can be changed that way. -/
def tryModify (f : PerState OutboundRegistry → Session → Except CodecError Session) :
    SessionM Unit := do
  match f (← read) (← get).session with
  | .ok s => modifySession fun _ => s
  | .error e => refuse e

def send (m : Message) : SessionM Unit := tryModify fun registries s => s.send registries m

def sendAll (messages : List Message) : SessionM Unit := messages.forM send

def setState (next : ProtocolState) : SessionM Unit := tryModify fun _ s => s.setState next

def setCompression (threshold : Int32) : SessionM Unit :=
  tryModify fun registries s => s.setCompression registries threshold

end SessionM

end VoxelServer
