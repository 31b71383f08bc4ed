import VoxelServer.Json.Record
import VoxelServer.Proofs.Frame.Soundness
import VoxelServer.Proofs.Json.RoundTrip
import VoxelServer.Proofs.Message.RoundTrip
import VoxelServer.Proofs.Session.Admission
import VoxelServer.Proofs.Session.Answering
import VoxelServer.Proofs.Wire.Consuming

/-!
# Asking for the status

A client that asks for the status sends requests and a ping, or something else. Whatever the bytes
are, the answers follow from them alone:

* `StatusTalk`: the requests at the front of a stream, and how it ends, a `StatusEnding`;
* `StatusTalk.exists`: every stream is one of these;
* `Hosted.dispatch_request` and its neighbours: one payload;
* `StatusTalk.consume`: a stream, by induction on its requests;
* `Json.TellsStatus`: what a client finds in the status, and `Hosted.parse?_statusText`: it does;
* `status_is_answered`: all of this, in any number of chunks.
-/

namespace VoxelServer

/-- How a stream ends behind its last request, with the bytes that are not looked at. -/
inductive StatusEnding
  /-- More bytes are awaited. -/
  | waiting (rest : Bytes)
  | pinged (eight rest : Bytes)
  | faulty (e : CodecError) (rest : Bytes)

namespace StatusEnding

def rest : StatusEnding → Bytes
  | waiting rest | pinged _ rest | faulty _ rest => rest

/-- What a ping is answered with. Nothing else is answered at the end. -/
def echo : StatusEnding → List Bytes
  | pinged eight _ => [1 :: eight]
  | waiting _ | faulty _ _ => []

def closes : StatusEnding → Bool
  | waiting _ => false
  | pinged _ _ | faulty _ _ => true

def result : StatusEnding → Except Disconnection Unit
  | faulty e _ => .error (.codec e)
  | waiting _ | pinged _ _ => .ok ()

end StatusEnding

/-- A stream that starts with so many requests for the status, and how it ends. -/
inductive StatusTalk (codec : FrameCodec) :
    (stream : Bytes) → (requests : Nat) → StatusEnding → Prop
  /-- Nothing, or a part of a frame. -/
  | waiting {stream : Bytes} (part : codec.decode stream = .incomplete) :
      StatusTalk codec stream 0 (.waiting stream)
  | request {stream field payload rest body : Bytes} {requests : Nat} {ending : StatusEnding}
      (frame : codec.Front stream field payload rest)
      (opcode : Wire.decode payload = .ok (VarInt.mk 0, body))
      (more : StatusTalk codec rest requests ending) :
      StatusTalk codec stream (requests + 1) ending
  | ping {stream field payload rest eight body : Bytes}
      (frame : codec.Front stream field payload rest)
      (opcode : Wire.decode payload = .ok (VarInt.mk 1, eight ++ body))
      (length : eight.length = 8) :
      StatusTalk codec stream 0 (.pinged eight rest)
  | badLength {stream : Bytes} {e : CodecError} (fault : codec.LengthFault stream e) :
      StatusTalk codec stream 0 (.faulty e stream)
  | badOpcode {stream field payload rest : Bytes} {e : CodecError}
      (frame : codec.Front stream field payload rest)
      (opcode : (Wire.decode : Decoder VarInt) payload = .error e) :
      StatusTalk codec stream 0 (.faulty e rest)
  | unknownOpcode {stream field payload rest body : Bytes} {opcode : Int32}
      (frame : codec.Front stream field payload rest)
      (read : Wire.decode payload = .ok (VarInt.mk opcode, body)) (request : opcode ≠ 0)
      (ping : opcode ≠ 1) :
      StatusTalk codec stream 0 (.faulty (.unknownOpcode .status opcode) rest)
  | shortPing {stream field payload rest body : Bytes}
      (frame : codec.Front stream field payload rest)
      (opcode : Wire.decode payload = .ok (VarInt.mk 1, body)) (short : body.length < 8) :
      StatusTalk codec stream 0 (.faulty (.truncated 8 body.length) rest)

variable {codec : FrameCodec}

theorem FrameCodec.front_of_decode {stream payload rest : Bytes} (off : codec.threshold = none)
    (decoded : codec.decode stream = .frame payload rest) :
    ∃ field, codec.Front stream field payload rest := by
  have sound := codec.decode_sound stream
  rw [decoded] at sound
  obtain ⟨-, field, body, front, holds⟩ := sound
  cases holds with
  | plain => exact ⟨field, front⟩
  | asIs on =>
    rw [off] at on
    cases on
  | packed on =>
    rw [off] at on
    cases on

/-- Every stream is a talk. -/
theorem StatusTalk.exists (off : codec.threshold = none) (stream : Bytes) :
    ∃ requests ending, StatusTalk codec stream requests ending := by
  -- by the length of the stream, as every request is behind a shorter one
  induction length : stream.length using Nat.strongRecOn generalizing stream with
  | ind n ih =>
    subst length
    have sound := codec.decode_sound stream
    cases decoded : codec.decode stream with
    | incomplete => exact ⟨0, _, .waiting decoded⟩
    | invalid e rest =>
      rw [decoded] at sound
      obtain ⟨-, fault⟩ | ⟨field, body, -, refused⟩ := sound
      · exact ⟨0, _, .badLength fault⟩
      · rw [FrameCodec.open?, off] at refused
        cases refused
    | frame payload rest =>
      obtain ⟨field, frame⟩ := FrameCodec.front_of_decode off decoded
      cases read : (Wire.decode : Decoder VarInt) payload with
      | error e => exact ⟨0, _, .badOpcode frame read⟩
      | ok r =>
        obtain ⟨⟨opcode⟩, fields⟩ := r
        by_cases request : opcode = 0
        · subst request
          have shorter := FrameCodec.length_rest_of_frame decoded
          obtain ⟨requests, ending, more⟩ := ih rest.length shorter rest rfl
          exact ⟨requests + 1, ending, .request frame read more⟩
        by_cases ping : opcode = 1
        · subst ping
          by_cases short : fields.length < 8
          · exact ⟨0, _, .shortPing frame read short⟩
          · rw [← List.take_append_drop 8 fields] at read
            exact ⟨0, _, .ping frame read (List.length_take_of_le (Nat.not_lt.mp short))⟩
        · exact ⟨0, _, .unknownOpcode frame read request ping⟩

namespace Hosted

theorem consume_of_incomplete {protocols : Protocols Handler} {h : Hosted} {buffer : Bytes}
    (decoded : h.session.frames.decode buffer = .incomplete) :
    consume protocols h buffer = (.ok (), h, buffer) := by
  rw [consume]
  split
  · rfl
  · split <;> simp_all

/-- The payload that tells the status. -/
def statusPayload (h : Hosted) : Bytes := 0 :: Wire.encode h.statusText

/-- The session with payloads that it has queued. -/
def queue (h : Hosted) (payloads : List Bytes) : Hosted :=
  { h with session := h.session.queue payloads }

/-- A session that asks for the status. -/
structure Asking (h : Hosted) : Prop where
  state : h.session.state = .status
  isOpen : h.session.closing = false
  plain : h.session.frames.threshold = none

variable {h : Hosted} {payload body : Bytes}

theorem send_asking (asking : h.Asking) {m : Message} (row : Int32 × MessageType) {opcode : UInt8}
    (bound : row ∈ ProtocolState.status.outboundTable) (type : row.2 = m.type)
    (single : encodeVarNum row.1.toUInt32.toNat = [opcode]) {body : Bytes}
    (written : m.encodeBody = .ok body) :
    SessionM.send m gameOutbound h = (.ok (), h.queue [opcode :: body]) := by
  have alone : ∀ p ∈ ProtocolState.status.processors, p.type ≠ m.type := by
    rintro p ⟨⟩
  have encoded := encode_of_body alone h.session.ctx bound type written
  have opens : Wire.encode (VarInt.mk row.1) ++ body = opcode :: body := congrArg (· ++ body) single
  rw [opens, ← asking.state] at encoded
  exact SessionM.run_tryModify (Session.send_of_encode encoded)

/-- A request is answered with the status. -/
theorem dispatch_request (asking : h.Asking)
    (opcode : Wire.decode payload = .ok (VarInt.mk 0, body)) :
    h.dispatch Protocols.game payload = (.ok (), h.queue [h.statusPayload]) := by
  have bound : (0, .statusRequest) ∈ h.session.state.inboundTable := by
    rw [asking.state]
    decide
  have read : h.message? Protocols.game payload = some .statusRequest :=
    message?_row bound opcode
  have single : encodeVarNum (0 : Int32).toUInt32.toNat = [0] := by
    rw [encodeVarNum]
    rfl
  rw [dispatch_of_message? read]
  exact send_asking asking (0, .statusResponse) (by decide) rfl single rfl

/-- A ping is echoed, and nothing is read behind it. -/
theorem dispatch_ping (asking : h.Asking) {eight : Bytes}
    (opcode : Wire.decode payload = .ok (VarInt.mk 1, eight ++ body)) (length : eight.length = 8) :
    h.dispatch Protocols.game payload =
      (.ok (), { h with session := (h.session.queue [1 :: eight]).close }) := by
  obtain ⟨n, rfl⟩ := exists_encode_int64 length
  have bound : (1, .ping) ∈ h.session.state.inboundTable := by
    rw [asking.state]
    decide
  have read : h.message? Protocols.game payload = some (.ping n) := by
    rw [message?_row bound opcode]
    exact congrArg Except.toOption ((Message.Spelled.ping n).reads.first body)
  have single : encodeVarNum (1 : Int32).toUInt32.toNat = [1] := by
    rw [encodeVarNum]
    rfl
  have sent : SessionM.send (.ping n) gameOutbound h =
      (.ok (), h.queue [1 :: Wire.encode n]) :=
    send_asking asking (1, .ping) (by decide) rfl single rfl
  rw [dispatch_of_message? read]
  show (SessionM.send (.ping n) >>= fun _ => SessionM.modifySession Session.close)
    gameOutbound h = _
  rw [SessionM.run_bind, sent]
  rfl

theorem dispatch_badOpcode {e : CodecError}
    (opcode : (Wire.decode : Decoder VarInt) payload = .error e) :
    h.dispatch Protocols.game payload = (.error (.codec e), h) := by
  simp only [dispatch, handlePayload, SessionM.run_bind, SessionM.run_get, opcode]
  rfl

theorem dispatch_unknownOpcode (asking : h.Asking) {opcode : Int32}
    (read : Wire.decode payload = .ok (VarInt.mk opcode, body)) (request : opcode ≠ 0)
    (ping : opcode ≠ 1) :
    h.dispatch Protocols.game payload = (.error (.codec (.unknownOpcode .status opcode)), h) := by
  have unbound : (Protocols.game.inbound.get .status).byOpcode? opcode = none := by
    cases found : (Protocols.game.inbound.get .status).byOpcode? opcode with
    | none => rfl
    | some entry =>
      obtain ⟨row, bound, rfl, -⟩ := row_of_gameInbound found
      obtain rfl | rfl : row = (0, .statusRequest) ∨ row = (1, .ping) := by
        simpa [ProtocolState.inboundTable] using bound
      · exact absurd rfl request
      · exact absurd rfl ping
  simp only [dispatch, handlePayload, SessionM.run_bind, SessionM.run_get, SessionM.run_pure, read,
    asking.state, unbound]
  rfl

theorem dispatch_shortPing (asking : h.Asking)
    (opcode : Wire.decode payload = .ok (VarInt.mk 1, body)) (short : body.length < 8) :
    h.dispatch Protocols.game payload = (.error (.codec (.truncated 8 body.length)), h) := by
  have bound : (1, .ping) ∈ ProtocolState.status.inboundTable := by decide
  have taken : take 8 body = .error (.truncated 8 body.length) := by
    have all : body.take 8 = body := List.take_of_length_le (Nat.le_of_lt short)
    simp only [take, all, if_neg (Nat.ne_of_lt short)]
  have refused : (Registry.Entry.ofRow (some Message.handle) (1, MessageType.ping)).codec.decode
      h.session.ctx body = .error (.truncated 8 body.length) := by
    show Prod.fst <$> (MessageType.ping.body body) = _
    simp only [MessageType.body, Wire.decode, Bind.bind, StateT.bind, Except.bind, taken]
    rfl
  simp only [dispatch, handlePayload, SessionM.run_bind, SessionM.run_get, SessionM.run_pure,
    opcode, asking.state, gameInbound_byOpcode? bound, refused]
  rfl

/-! ## A stream -/

/-- The session when a stream has ended: as many answers as there were requests, and an echo where a
ping came behind them. -/
def answered (h : Hosted) (requests : Nat) (ending : StatusEnding) : Hosted :=
  { h with
    session := { h.session with
      outbound := h.session.outbound ++
        (List.replicate requests h.statusPayload ++ ending.echo).map h.session.frames.encode
      closing := ending.closes } }

/-- Nothing is said of a fault. -/
theorem fail_asking (asking : h.Asking) (e : Disconnection) (rest : Bytes) (fault : CodecError) :
    h.fail Protocols.game e = h.answered 0 (.faulty fault rest) := by
  have silent : h.fail Protocols.game e = { h with session := h.session.close } :=
    congrArg (fun session => { h with session })
      (Session.disconnect_untold (.inr asking.state) e.reason)
  rw [silent, answered, StatusEnding.echo, List.replicate_zero, List.append_nil, List.map_nil,
    List.append_nil]
  rfl

theorem answered_waiting (asking : h.Asking) (rest : Bytes) : h.answered 0 (.waiting rest) = h := by
  obtain ⟨session, server⟩ := h
  have isOpen : session.closing = false := asking.isOpen
  simp [answered, StatusEnding.echo, StatusEnding.closes, ← isOpen]

theorem answered_queue (h : Hosted) (requests : Nat) (ending : StatusEnding) :
    (h.queue [h.statusPayload]).answered requests ending = h.answered (requests + 1) ending := by
  have same : (h.queue [h.statusPayload]).statusPayload = h.statusPayload := rfl
  simp only [answered, same]
  simp [queue, Session.queue, List.replicate_succ]

theorem Asking.not_closing (asking : h.Asking) : ¬ h.session.closing = true := by
  rw [asking.isOpen]
  exact Bool.false_ne_true

/-- A frame at the front of a stream is handled before what follows it. -/
theorem consume_of_front (asking : h.Asking) {stream field rest : Bytes}
    (frame : h.session.frames.Front stream field payload rest) :
    consume Protocols.game h stream =
      match h.dispatch Protocols.game payload with
      | (.ok (), h) => consume Protocols.game h rest
      | (.error e, h) => (.error e, h.fail Protocols.game e, rest) :=
  consume_of_frame asking.not_closing (frame.decode_of_off asking.plain)

/-- A frame that is refused is the last one. -/
theorem consume_of_refused (asking : h.Asking) {stream field rest : Bytes} {e : CodecError}
    (frame : h.session.frames.Front stream field payload rest)
    (refused : h.dispatch Protocols.game payload = (.error (.codec e), h)) :
    consume Protocols.game h stream =
      (.error (.codec e), h.answered 0 (.faulty e rest), rest) := by
  rw [consume_of_front asking frame, refused]
  simp only [fail_asking asking (.codec e) rest e]

end Hosted

/-- What a stream is answered with follows from what it says. -/
theorem StatusTalk.consume {h : Hosted} {stream : Bytes} {requests : Nat} {ending : StatusEnding}
    (talk : StatusTalk h.session.frames.toFrameCodec stream requests ending) (asking : h.Asking) :
    Hosted.consume Protocols.game h stream =
      (ending.result, h.answered requests ending, ending.rest) := by
  generalize same : h.session.frames.toFrameCodec = codec at talk
  induction talk generalizing h with subst same
  | waiting part =>
    rw [Hosted.answered_waiting asking, Hosted.consume_of_incomplete part]
    rfl
  | request frame opcode _ ih =>
    rw [Hosted.consume_of_front asking frame, Hosted.dispatch_request asking opcode]
    have next : (h.queue [h.statusPayload]).Asking := ⟨asking.state, asking.isOpen, asking.plain⟩
    rw [← Hosted.answered_queue]
    exact ih next rfl
  | ping frame opcode length =>
    rw [Hosted.consume_of_front asking frame, Hosted.dispatch_ping asking opcode length]
    exact Hosted.consume_of_closing rfl _
  | badLength fault =>
    rw [Hosted.consume_of_invalid asking.not_closing fault.decode, Hosted.fail_asking asking]
    rfl
  | badOpcode frame opcode =>
    exact Hosted.consume_of_refused asking frame (Hosted.dispatch_badOpcode opcode)
  | unknownOpcode frame read request ping =>
    exact Hosted.consume_of_refused asking frame
      (Hosted.dispatch_unknownOpcode asking read request ping)
  | shortPing frame opcode short =>
    exact Hosted.consume_of_refused asking frame (Hosted.dispatch_shortPing asking opcode short)

/-! ## What the status says -/

/-- The value at the end of a path of names. -/
def Json.at? : List String → Json → Option Json
  | [], value => some value
  | name :: names, .object members => (member? members name).join.bind (at? names)
  | _ :: _, _ => none

/-- A status of the server, for a client that is modded or not. -/
structure Json.TellsStatus (value : Json) (server : Server) (forge : Bool) : Prop where
  version : value.at? ["version", "name"] = some (.text "1.10.2")
  protocol : value.at? ["version", "protocol"] = some (.integer 210)
  limit : value.at? ["players", "max"] = some (.integer server.config.maxPlayers)
  online : value.at? ["players", "online"] = some (.integer server.online)
  description : value.at? ["description", "text"] = some (.text server.config.motd)
  mods : value.at? ["modinfo", "type"] = if forge then some (.text "FML") else none

theorem Hosted.tellsStatus (h : Hosted) : h.status.TellsStatus h.server h.session.ctx.forge := by
  cases forge : h.session.ctx.forge <;> constructor <;>
    simp [Hosted.status, Json.record, Json.at?, Json.member?, forge, versionName, spokenVersion]

open Json.Textual in
theorem Hosted.textual_status (h : Hosted) : h.status.Textual := by
  have description : (Json.record [("text", .text h.server.config.motd)]).Textual :=
    object (by simp [text])
  have mods : (Json.record [("modList", .array []), ("type", .text "FML")]).Textual :=
    object (by simp [array, text])
  have players : (Json.record [("max", .integer h.server.config.maxPlayers),
      ("online", .integer h.server.online), ("sample", .array [])]).Textual :=
    object (by simp [integer, array])
  have version : (Json.record [("name", .text versionName),
      ("protocol", .integer spokenVersion.toInt)]).Textual :=
    object (by simp [text, integer])
  exact object (by cases h.session.ctx.forge <;> simp [description, mods, players, version])

/-- What is sent as the status can be read, and says what it has to. -/
theorem Hosted.parse?_statusText (h : Hosted) :
    ∃ value, Json.parse? h.statusText = some value ∧
      value.TellsStatus h.server h.session.ctx.forge :=
  ⟨h.status, Json.parse?_compact h.textual_status, h.tellsStatus⟩

/-- **A client that asks for the status gets exactly what it asked for**, in however many chunks its
bytes come. Every request up to the ping or the fault that ends the stream is answered with the
status, and a ping is echoed; what follows the end is kept and not looked at. A fault is an error
and nothing is said of it. The server stays as it is. The status is a text from which anyone reads
the version that is spoken, how many players there are and how many there may be, the server's
message of the day, and for modded clients what kind of mods they should expect. -/
theorem status_is_answered (server : Server) (s : Session) (chunks : List Bytes)
    (asking : s.state = .status) (isOpen : s.closing = false) (plain : s.frames.threshold = none) :
    (∃ requests ending, StatusTalk s.frames.toFrameCodec chunks.flatten requests ending) ∧
    (∀ requests ending, StatusTalk s.frames.toFrameCodec chunks.flatten requests ending →
      Connection.receiveAll Protocols.game server ⟨s, []⟩ chunks =
        (ending.result,
          { session := { s with
              outbound := s.outbound ++
                (List.replicate requests (0 :: Wire.encode (Hosted.statusText ⟨s, server⟩)) ++
                  ending.echo).map s.frames.encode
              closing := ending.closes }
            inbound := ending.rest },
          server)) ∧
    ∃ value, Json.parse? (Hosted.statusText ⟨s, server⟩) = some value ∧
      value.TellsStatus server s.ctx.forge := by
  refine ⟨StatusTalk.exists plain _, ?_, Hosted.parse?_statusText ⟨s, server⟩⟩
  intro requests ending talk
  have worked : Hosted.consume Protocols.game ⟨s, server⟩ chunks.flatten = _ :=
    talk.consume ⟨asking, isOpen, plain⟩
  have received : Connection.receiveAll Protocols.game server ⟨s, []⟩ chunks =
      Connection.receive Protocols.game server ⟨s, []⟩ chunks.flatten := by
    cases chunks with
    | nil =>
      have nothing : Hosted.consume Protocols.game ⟨s, server⟩ [] = (.ok (), ⟨s, server⟩, []) :=
        Hosted.consume_of_incomplete rfl
      simp only [List.flatten_nil, Connection.receiveAll, Connection.receive, List.append_nil,
        nothing]
    | cons chunk chunks => exact Connection.receiveAll_cons _ _ _ chunk chunks
  rw [received, Connection.receive, List.nil_append, worked]
  rfl

/-- A request and a ping, cut in the middle, with a byte behind them. -/
theorem request_and_ping_are_answered :
    let s : Session := { Session.start {} Zlib.deflate with state := .status }
    let server : Server := .start {} .acceptAll
    Connection.receiveAll Protocols.game server ⟨s, []⟩
        [[1, 0, 9, 1, 1, 2], [3, 4, 5, 6, 7, 8, 255]] =
      (.ok (),
        { session := { s with
            outbound := [s.frames.encode (0 :: Wire.encode (Hosted.statusText ⟨s, server⟩)),
              s.frames.encode [1, 1, 2, 3, 4, 5, 6, 7, 8]]
            closing := true }
          inbound := [255] },
        server) := by
  intro s server
  have first : s.frames.decode [1, 0, 9, 1, 1, 2, 3, 4, 5, 6, 7, 8, 255] =
      .frame [0] [9, 1, 1, 2, 3, 4, 5, 6, 7, 8, 255] := by decide
  have second : s.frames.decode [9, 1, 1, 2, 3, 4, 5, 6, 7, 8, 255] =
      .frame [1, 1, 2, 3, 4, 5, 6, 7, 8] [255] := by decide
  obtain ⟨_, request⟩ := FrameCodec.front_of_decode rfl first
  obtain ⟨_, ping⟩ := FrameCodec.front_of_decode rfl second
  have talk : StatusTalk s.frames.toFrameCodec [1, 0, 9, 1, 1, 2, 3, 4, 5, 6, 7, 8, 255] 1
      (.pinged [1, 2, 3, 4, 5, 6, 7, 8] [255]) :=
    .request request rfl (.ping ping rfl rfl)
  exact (status_is_answered server s [[1, 0, 9, 1, 1, 2], [3, 4, 5, 6, 7, 8, 255]] rfl rfl rfl).2.1
    1 _ talk

end VoxelServer
