import VoxelServer.Session.Hosted

/-!
# Connections

The byte end of a session. Bytes come in as the network delivers them; every frame they complete
is read and handled, in order, in the state the frame before it has left.

* `Connection`: a session and the bytes of a frame that is not complete yet.
* `Connection.receive`: more bytes.
-/

namespace VoxelServer

structure Connection where
  session : Session
  /-- The bytes that are not worked off yet. -/
  inbound : Bytes

namespace Connection

def start (config : Config) (deflate : Bytes → Bytes) : Connection :=
  ⟨.start config deflate, []⟩

end Connection

/-- Reads a payload and hands the message to its handler. -/
def handlePayload (registry : Registry Handler) (payload : Bytes) : SessionM Unit := do
  let session := (← get).session
  let (opcode, body) ← match (Wire.decode : Decoder VarInt) payload with
    | .ok (opcode, body) => pure (opcode.value, body)
    | .error e => SessionM.refuse e
  match registry.byOpcode? opcode with
  | none => SessionM.refuse (.unknownOpcode session.state opcode)
  | some entry =>
    match entry.codec.decode session.ctx body with
    | .error e => SessionM.refuse e
    | .ok m =>
      match entry.handler with
      | none => return
      | some handler => handler m

namespace Hosted

/-- What a payload does in the state the session is in. -/
def dispatch (protocols : Protocols Handler) (payload : Bytes) (h : Hosted) :
    Except Disconnection Unit × Hosted :=
  handlePayload (protocols.inbound.get h.session.state) payload protocols.outbound h

/-- Ends the session for a reason. -/
def fail (protocols : Protocols Handler) (h : Hosted) (e : Disconnection) : Hosted :=
  { h with session := h.session.disconnect protocols.outbound e.reason }

/-- Works off the frames at the front of a buffer until the session closes. What is left of the
buffer comes last. -/
def consume (protocols : Protocols Handler) (h : Hosted) (buffer : Bytes) :
    Except Disconnection Unit × Hosted × Bytes :=
  if h.session.closing then (.ok (), h, buffer)
  else
    match decoded : h.session.frames.decode buffer with
    | .incomplete => (.ok (), h, buffer)
    | .invalid e rest => (.error (.codec e), h.fail protocols (.codec e), rest)
    | .frame payload rest =>
      match h.dispatch protocols payload with
      | (.ok (), h) =>
        have := FrameCodec.length_rest_of_frame decoded
        consume protocols h rest
      | (.error e, h) => (.error e, h.fail protocols e, rest)
termination_by buffer.length

end Hosted

/-- Takes more bytes. If they end the session, the client is told why where the state has a way
to. A session that is closing keeps them and looks at none. -/
def Connection.receive (protocols : Protocols Handler) (server : Server) (c : Connection)
    (bytes : Bytes) : Except Disconnection Unit × Connection × Server :=
  let (result, h, inbound) :=
    Hosted.consume protocols ⟨c.session, server⟩ (c.inbound ++ bytes)
  (result, ⟨h.session, inbound⟩, h.server)

end VoxelServer
