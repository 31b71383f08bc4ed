import VoxelServer.Frame
import VoxelServer.Message.Chat
import VoxelServer.Protocol.Outbound
import VoxelServer.Session.Player

/-!
# Sessions

What the server knows of one connection: the state of the protocol, the framing, the frames that
wait to be written, and the player once there is one.

* `Session`: the type.
* `Session.send`, `Session.sendBroadcast`: queue messages.
* `Session.setState`, `Session.setCompression`, `Session.disconnect`.
* `Session.tick`, `Session.acknowledge`: keep-alives.

A message that cannot be encoded leaves no trace in the queue.
-/

namespace VoxelServer

structure Session where
  state : ProtocolState
  frames : Framing
  /-- Frames that wait to be written, the oldest first. -/
  outbound : List Bytes
  ctx : CodecContext
  /-- Whether nothing more is read. What is queued is still written. -/
  closing : Bool
  /-- The last tick. -/
  now : Nat
  player : Option Player

namespace Session

def start (config : Config) (deflate : Bytes → Bytes) : Session where
  state := .handshake
  frames := .ofMaxLength config.maxFrameLength deflate
  outbound := []
  ctx := {}
  closing := false
  now := 0
  player := none

/-! ## Sending -/

/-- Queues payloads, each in a frame. -/
def queue (s : Session) (payloads : List Bytes) : Session :=
  { s with outbound := s.outbound ++ payloads.map s.frames.encode }

/-- Queues all of what a message is sent as. -/
def send (registries : PerState OutboundRegistry) (s : Session) (m : Message) :
    Except CodecError Session :=
  s.queue <$> (registries.get s.state).encode s.ctx m

/-- Queues payloads that were encoded for all sessions in a state. -/
def sendCached (s : Session) (state : ProtocolState) (payloads : List Bytes) : Session :=
  if state = s.state then s.queue payloads else s

/-- Queues a message for many. -/
def sendBroadcast (registries : PerState OutboundRegistry) (s : Session) :
    Broadcast → Except CodecError Session
  | .cached state payloads => .ok (s.sendCached state payloads)
  | .perConnection _ m => s.send registries m

/-- Takes the oldest frame off the queue. -/
def poll (s : Session) : Option (Bytes × Session) :=
  match s.outbound with
  | [] => none
  | frame :: outbound => some (frame, { s with outbound })

/-- Puts back what could not be written of a frame. -/
def unpoll (s : Session) (rest : Bytes) : Session := { s with outbound := rest :: s.outbound }

/-- Takes all frames off the queue. -/
def takeOutbound (s : Session) : List Bytes × Session := (s.outbound, { s with outbound := [] })

/-! ## The course of a session -/

def setState (s : Session) (next : ProtocolState) : Except CodecError Session :=
  if s.state.canMoveTo next then .ok { s with state := next }
  else .error (.invalid (.cannotMove s.state next))

/-- Announces a threshold, and frames all that follows by it. -/
def setCompression (registries : PerState OutboundRegistry) (s : Session) (threshold : Int32) :
    Except CodecError Session := do
  let s ← s.send registries (.setCompression threshold)
  return { s with frames := s.frames.setCompression threshold }

def close (s : Session) : Session := { s with closing := true }

/-- Sends a reason where the state has a way to, and closes. -/
def disconnect (registries : PerState OutboundRegistry) (s : Session) (reason : String) :
    Session :=
  if (registries.get s.state).contains .disconnect then
    match s.send registries (.disconnectText reason) with
    | .ok s => s.close
    | .error _ => s.close
  else s.close

/-! ## Keep-alives -/

/-- A tick of the server's clock. A player who was silent for too long is disconnected. -/
def tick (registries : PerState OutboundRegistry) (config : Config) (now : Nat) (s : Session) :
    Except CodecError Unit × Session :=
  let s := { s with now }
  if s.state != .play || s.closing then (.ok (), s)
  else match s.player with
    | none => (.ok (), s)
    | some player =>
      if player.liveness.isOverdue config now then
        (.ok (), s.disconnect registries "Timed out")
      else if player.liveness.isDue config now then
        let id := Int32.ofNat now
        let s := { s with player := some { player with liveness := player.liveness.sent id now } }
        match s.send registries (.keepAlive id) with
        | .ok s => (.ok (), s)
        | .error e => (.error e, s)
      else (.ok (), s)

/-- The client has answered a keep-alive. -/
def acknowledge (s : Session) (id : Int32) : Session :=
  { s with
    player := s.player.map fun player =>
      { player with liveness := player.liveness.answered id s.now } }

end Session

end VoxelServer
