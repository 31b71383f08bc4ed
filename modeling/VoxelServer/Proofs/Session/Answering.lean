import VoxelServer.Proofs.Session.Chunking
import VoxelServer.Proofs.Session.Delivery
import VoxelServer.Proofs.Session.Ticks

/-!
# Keep-alives and answers

Keep-alives are asked and answered in bytes:

* `Hosted.Reads`: the bytes of a client hold a message, and the session gets to read it;
* `Line.Pings`, `Line.Answers`: a tick queues a keep-alive, and an action answers it;
* `Line.Punctual`: every keep-alive that a tick queues is answered before its time is up;
* `Line.lull_step`, `Line.ticked_step`, `Line.answered_step`: what one action does to the player.
-/

namespace VoxelServer

/-! ## Answers in the bytes of a client -/

namespace Hosted

/-- How a payload is read in the state the session is in. -/
def message? (protocols : Protocols Handler) (h : Hosted) (payload : Bytes) : Option Message :=
  match (Wire.decode : Decoder VarInt) payload with
  | .error _ => none
  | .ok (opcode, body) =>
    match (protocols.inbound.get h.session.state).byOpcode? opcode.value with
    | none => none
    | some entry => (entry.codec.decode h.session.ctx body).toOption

/-- A message is read behind an opcode, by the codec that the opcode is bound to. -/
theorem exists_of_message? {protocols : Protocols Handler} {h : Hosted} {payload : Bytes}
    {m : Message} (read : h.message? protocols payload = some m) :
    ∃ opcode body entry, (Wire.decode : Decoder VarInt) payload = .ok (opcode, body) ∧
      (protocols.inbound.get h.session.state).byOpcode? opcode.value = some entry ∧
      entry.codec.decode h.session.ctx body = .ok m := by
  unfold message? at read
  split at read
  · cases read
  rename_i opcode body header
  split at read
  · cases read
  rename_i entry found
  cases decoded : entry.codec.decode h.session.ctx body with
  | error e => simp [decoded, Except.toOption] at read
  | ok m' =>
    rw [decoded] at read
    cases read
    exact ⟨opcode, body, entry, header, found, decoded⟩

/-- A payload that names a row of the table is read as the body of its type. -/
theorem message?_row {h : Hosted} {payload body : Bytes} {row : Int32 × MessageType}
    (bound : row ∈ h.session.state.inboundTable)
    (header : Wire.decode payload = .ok (VarInt.mk row.1, body)) :
    h.message? Protocols.game payload = (row.2.body.first body).toOption := by
  unfold message?
  simp only [header, gameInbound_byOpcode? bound]
  rfl

/-- Working off a buffer reads a message. -/
inductive Reads (protocols : Protocols Handler) (m : Message) : Hosted → Bytes → Prop
  | now {h : Hosted} {buffer payload rest : Bytes} (isOpen : h.session.closing = false)
      (frame : h.session.frames.decode buffer = .frame payload rest)
      (read : h.message? protocols payload = some m) : Reads protocols m h buffer
  | later {h h' : Hosted} {buffer payload rest : Bytes} (isOpen : h.session.closing = false)
      (frame : h.session.frames.decode buffer = .frame payload rest)
      (handled : h.dispatch protocols payload = (.ok (), h'))
      (reads : Reads protocols m h' rest) : Reads protocols m h buffer

/-- What is read is handled. -/
theorem dispatch_of_message? {h : Hosted} {payload : Bytes} {m : Message}
    (read : h.message? Protocols.game payload = some m) :
    h.dispatch Protocols.game payload = m.handle gameOutbound h := by
  obtain ⟨opcode, body, entry, header, found, decoded⟩ := exists_of_message? read
  simp only [dispatch, handlePayload, SessionM.run_bind, SessionM.run_get, SessionM.run_pure,
    header, found, decoded, handler_game found]
  rfl

/-- An answer in a buffer reaches the player. -/
theorem answered_of_reads {h : Hosted} {buffer : Bytes} {id : Int32}
    (reads : h.Reads Protocols.game (.keepAlive id) buffer) :
    ∀ live ∈ (consume Protocols.game h buffer).2.1.session.liveness?, live.pending ≠ some id := by
  induction reads with
  | @now h buffer payload rest isOpen frame read =>
    have handled : h.dispatch Protocols.game payload =
        (.ok (), { h with session := h.session.acknowledge id }) := dispatch_of_message? read
    rw [consume_of_frame (by simp [isOpen]) frame, handled]
    refine (Lull.course.consume_within Lull.fail _ rest).1.pending fun live mem => ?_
    exact Session.answered_acknowledge _ id live mem
  | later isOpen frame handled _ ih =>
    rw [consume_of_frame (by simp [isOpen]) frame, handled]
    exact ih

end Hosted

/-! ## Runs by the clock -/

namespace Action

def isTick : Action → Bool
  | tick _ => true
  | _ => false

/-- Other sessions leave the configuration alone. -/
def Steady (config : Config) : Action → Prop
  | meanwhile server => server.config = config
  | _ => True

/-- The ticks of a run count on from a number. -/
def Counts (now : Nat) : List Action → Prop
  | [] => True
  | tick next :: actions => next = now + 1 ∧ Counts next actions
  | _ :: actions => Counts now actions

theorem counts_of_cons {now : Nat} {a : Action} {actions : List Action} (other : a.isTick = false)
    (counts : Counts now (a :: actions)) : Counts now actions := by
  cases a with
  | tick next => cases other
  | _ => exact counts

/-- The client of a player called Steve shakes hands and logs in. -/
def steveJoins : Action :=
  .receive
    [16, 0, 210, 1, 9, 108, 111, 99, 97, 108, 104, 111, 115, 116, 99, 221, 2,
      7, 0, 5, 83, 116, 101, 118, 101]

end Action

namespace Line

/-- A tick queues the keep-alive with some number. -/
def Pings (l : Line) (now : Nat) (id : Int32) : Prop :=
  (l.step (.tick now)).session.closing = false ∧
    ∃ s, l.session.send gameOutbound (.keepAlive id) = .ok s ∧
      (l.step (.tick now)).session.outbound = s.outbound

/-- An action answers it. -/
def Answers (l : Line) (id : Int32) : Action → Prop
  | .receive bytes =>
    Hosted.Reads Protocols.game (.keepAlive id) ⟨l.session, l.server⟩
      (l.connection.inbound ++ bytes)
  | .acknowledge answer => answer = id
  | _ => False

/-- Some action of a run answers it. -/
def Answered (id : Int32) : Line → List Action → Prop
  | _, [] => False
  | l, a :: actions => l.Answers id a ∨ (l.step a).Answered id actions

/-- If a tick comes, the keep-alive was answered before. -/
def Awaits (l : Line) (deadline : Nat) (id : Int32) (actions : List Action) : Prop :=
  ∀ between late, actions = between ++ .tick deadline :: late → l.Answered id between

/-- Every keep-alive that a tick queues is answered before its time is up. -/
def Punctual (l : Line) (timeout : Nat) (actions : List Action) : Prop :=
  ∀ early now late id, actions = early ++ .tick now :: late → (l.run early).Pings now id →
    ((l.run early).step (.tick now)).Awaits (now + timeout + 1) id late

/-- A tick disconnects the player for being silent. -/
def TimesOut (l : Line) (now : Nat) : Prop :=
  l.session.closing = false ∧
    (l.step (.tick now)).session = { l.session with now }.disconnect gameOutbound "Timed out"

theorem Punctual.tail {l : Line} {timeout : Nat} {a : Action} {actions : List Action}
    (h : l.Punctual timeout (a :: actions)) : (l.step a).Punctual timeout actions :=
  fun early now late id split => h (a :: early) now late id (congrArg (a :: ·) split)

theorem Punctual.drop {l : Line} {timeout : Nat} {early late : List Action}
    (h : l.Punctual timeout (early ++ late)) : (l.run early).Punctual timeout late := by
  induction early generalizing l with
  | nil => exact h
  | cons a early ih => exact ih h.tail

theorem Awaits.ne_tick {l : Line} {deadline now : Nat} {id : Int32} {actions : List Action}
    (h : l.Awaits deadline id (.tick now :: actions)) : now ≠ deadline := by
  rintro rfl
  exact h [] actions rfl

theorem Awaits.tail {l : Line} {deadline : Nat} {id : Int32} {a : Action} {actions : List Action}
    (h : l.Awaits deadline id (a :: actions)) (silent : ¬ l.Answers id a) :
    (l.step a).Awaits deadline id actions :=
  fun between late split =>
    (h (a :: between) late (congrArg (a :: ·) split)).resolve_left silent

/-! ## What one action does -/

theorem lull_attempt {l : Line} {result : Except CodecError Session}
    (h : ∀ s, result = .ok s → l.session.Lull s) : l.session.Lull (l.attempt result).session := by
  cases result with
  | ok s => exact h s rfl
  | error e => exact .refl _

theorem lull_step (l : Line) {a : Action} (other : a.isTick = false) :
    l.session.Lull (l.step a).session := by
  cases a with
  | receive bytes =>
    exact (Hosted.Lull.course.receive_within Hosted.Lull.fail l.server l.connection bytes).1
  | meanwhile | write => exact .refl _
  | tick now => cases other
  | send m => exact lull_attempt fun _ sent => Session.lull_send sent
  | broadcast state m =>
    refine lull_attempt fun s sent => ?_
    obtain ⟨b, -, sent⟩ := exists_of_bind_ok sent
    exact Session.lull_sendBroadcast sent
  | setState next => exact lull_attempt fun _ moved => Session.lull_setState moved
  | setCompression threshold => exact lull_attempt fun _ set => Session.lull_setCompression set
  | acknowledge id => exact .answer _ id
  | disconnect reason => exact Session.lull_disconnect reason
  | close => exact Session.lull_close
  | poll =>
    unfold step Session.poll
    cases l.session.outbound with
    | nil => exact .refl _
    | cons frame outbound => exact .keep rfl (.inl rfl) id rfl
  | unpoll rest => exact .keep rfl (.inl rfl) id rfl

theorem config_step {l : Line} {a : Action} (steady : a.Steady l.server.config) :
    (l.step a).server.config = l.server.config := by
  have attempt (result : Except CodecError Session) : (l.attempt result).server = l.server := by
    cases result <;> rfl
  cases a with
  | receive bytes =>
    exact (Hosted.Lull.course.receive_within Hosted.Lull.fail l.server l.connection bytes).2
  | meanwhile server => exact steady
  | write | unpoll => rfl
  | poll =>
    unfold step
    dsimp only
    split <;> rfl
  | _ => exact congrArg _ (attempt _)

theorem ticked_step (l : Line) (now : Nat) :
    l.session.Ticked l.server.config now (l.step (.tick now)).session :=
  l.session.ticked_tick l.server.config now

/-- A keep-alive that a tick queues is that of the tick, and is open from then on. -/
theorem eq_of_pings {l : Line} {now : Nat} {id : Int32}
    (undoes : FrameCodec.Undoes l.session.frames.deflate) (pings : l.Pings now id) :
    id = Int32.ofNat now ∧ ∃ live ∈ (l.step (.tick now)).session.liveness?,
      live.pending = some id ∧ live.lastSent = now := by
  obtain ⟨still, s, sent, queued⟩ := pings
  obtain ⟨payloads, encoded, rfl⟩ := exists_of_map_ok sent
  obtain rfl := keepAlive_of_encode encoded
  have ticked := l.ticked_step now
  revert still queued ticked
  generalize (l.step (.tick now)).session = t
  intro still queued ticked
  cases ticked with
  | idle => simp [Session.queue] at queued
  | timedOut =>
    rw [Session.closing_disconnect] at still
    cases still
  | @pinged live _ u _ _ _ _ _ _ _ _ asked sent' queued' =>
    obtain ⟨payloads, encoded', rfl⟩ := exists_of_map_ok sent'
    obtain rfl := keepAlive_of_encode encoded'
    have frames := List.append_cancel_left (queued.symm.trans queued')
    obtain rfl := eq_of_encode_keepAlive undoes (List.cons.inj frames).1
    exact ⟨rfl, _, asked, rfl, rfl⟩

/-- An answer reaches the player. -/
theorem answered_step {l : Line} {a : Action} {id : Int32} (answers : l.Answers id a) :
    ∀ live ∈ (l.step a).session.liveness?, live.pending ≠ some id := by
  cases a with
  | receive bytes => exact Hosted.answered_of_reads answers
  | acknowledge answer =>
    cases answers
    exact Session.answered_acknowledge _ id
  | _ => cases answers

end Line

end VoxelServer
