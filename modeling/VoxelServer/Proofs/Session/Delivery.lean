import VoxelServer.Proofs.Session.Sending

/-!
# What the client of a session reads

A session is used by its server, and its frames are written to the network as far as the network
takes them. Whatever the order of all this is, the client keeps up:

* `Action`, `Line`: what can be done to a session, and what became of its frames;
* `Line.Framed`: the payloads that a run of actions frames;
* `Line.queued_of_framed`: the frames are those of a writer that follows its own announcements;
* `client_reads_payloads`: a client that follows them too reads these payloads, and the bytes on
  the wire are the frames in the order in which they were queued.
-/

namespace VoxelServer

/-- What can be done to a session, and to the server around it. -/
inductive Action
  | receive (bytes : Bytes)
  /-- Other sessions have changed the server. -/
  | meanwhile (server : Server)
  | tick (now : Nat)
  | send (m : Message)
  /-- A message for many is prepared for a state, and sent. -/
  | broadcast (state : ProtocolState) (m : Message)
  | setState (next : ProtocolState)
  | setCompression (threshold : Int32)
  | acknowledge (id : Int32)
  | disconnect (reason : String)
  | close
  | poll
  /-- The network takes some bytes of the frame that was polled. -/
  | write (count : Nat)
  | unpoll (rest : Bytes)

namespace Action

/-- The announcement of a threshold is not sent like other messages. -/
def Apart : Action → Prop
  | send m | broadcast _ m => m.type ≠ .setCompression
  | _ => True

/-- Whether an action is about frames that are queued already. -/
def isTransfer : Action → Bool
  | poll | write _ | unpoll _ => true
  | _ => false

end Action

/-- A connection at its server, and what became of its frames. -/
structure Line where
  connection : Connection
  server : Server
  /-- Every frame that was ever queued. -/
  queued : List Bytes
  /-- What is left to write of the frame that was polled. -/
  held : Bytes
  written : Bytes

namespace Line

def start (server : Server) (deflate : Bytes → Bytes) : Line :=
  ⟨.start server.config deflate, server, [], [], []⟩

def session (l : Line) : Session := l.connection.session

/-- The session and what else changed; the frames at the end of the queue are new. -/
def become (l : Line) (c : Connection) (server : Server) : Line :=
  { l with
    connection := c, server,
    queued := l.queued ++ c.session.outbound.drop l.session.outbound.length }

/-- The server has done something to the session. If it was refused nothing has happened. -/
def attempt (l : Line) (result : Except CodecError Session) : Line :=
  match result with
  | .ok session => l.become { l.connection with session } l.server
  | .error _ => l

def step (l : Line) : Action → Line
  | .receive bytes =>
    let (_, c, server) := l.connection.receive Protocols.game l.server bytes
    l.become c server
  | .meanwhile server => { l with server }
  | .tick now => l.attempt (.ok (l.session.tick gameOutbound l.server.config now).2)
  | .send m => l.attempt (l.session.send gameOutbound m)
  | .broadcast state m => l.attempt do
    l.session.sendBroadcast gameOutbound (← (gameOutbound.get state).prepare m)
  | .setState next => l.attempt (l.session.setState next)
  | .setCompression threshold => l.attempt (l.session.setCompression gameOutbound threshold)
  | .acknowledge id => l.attempt (.ok (l.session.acknowledge id))
  | .disconnect reason => l.attempt (.ok (l.session.disconnect gameOutbound reason))
  | .close => l.attempt (.ok l.session.close)
  | .poll =>
    match l.session.poll with
    | none => l
    | some (frame, session) => { l with connection := { l.connection with session }, held := frame }
  | .write count =>
    { l with held := l.held.drop count, written := l.written ++ l.held.take count }
  | .unpoll rest =>
    { l with connection := { l.connection with session := l.session.unpoll rest }, held := [] }

def run (l : Line) (actions : List Action) : Line := actions.foldl step l

/-- The payloads that a run of actions frames, in order. -/
inductive Framed : Line → List Action → List Bytes → Prop
  | nil (l : Line) : Framed l [] []
  | sends {l : Line} {a : Action} {actions : List Action} {payloads more : List Bytes}
      (other : a.isTransfer = false) (first : l.session.Sends payloads (l.step a).session)
      (rest : Framed (l.step a) actions more) : Framed l (a :: actions) (payloads ++ more)
  | transfer {l : Line} {a : Action} {actions : List Action} {payloads : List Bytes}
      (transfers : a.isTransfer = true) (rest : Framed (l.step a) actions payloads) :
      Framed l (a :: actions) payloads

/-- A frame is polled once the last one is written or put back, and what is put back is what was
not written. -/
def InTurn (l : Line) : Action → Prop
  | .poll => l.held = []
  | .unpoll rest => rest = l.held
  | _ => True

/-- A run whose actions are all in turn. -/
def Orderly : Line → List Action → Prop
  | _, [] => True
  | l, a :: actions => l.InTurn a ∧ (l.step a).Orderly actions

/-! ## What is framed -/

theorem sends_attempt {l : Line} {result : Except CodecError Session}
    (h : ∀ s, result = .ok s → ∃ payloads, l.session.Sends payloads s) :
    ∃ payloads, l.session.Sends payloads (l.attempt result).session := by
  cases result with
  | ok s => exact h s rfl
  | error e => exact ⟨[], .idle rfl rfl⟩

/-- An action that transfers nothing only frames payloads. -/
theorem sends_step (l : Line) {a : Action} (apart : a.Apart) (other : a.isTransfer = false) :
    ∃ payloads, l.session.Sends payloads (l.step a).session := by
  cases a with
  | receive bytes => exact sends_receive l.server l.connection bytes
  | meanwhile server => exact ⟨[], .idle rfl rfl⟩
  | tick now => exact l.session.sends_tick l.server.config now
  | send m => exact sends_attempt fun _ sent => Session.sends_send apart sent
  | broadcast state m =>
    refine sends_attempt fun s sent => ?_
    obtain ⟨b, prepared, sent⟩ := exists_of_bind_ok sent
    exact Session.sends_sendBroadcast apart prepared sent
  | setState next => exact sends_attempt fun _ moved => Session.sends_setState moved
  | setCompression threshold =>
    exact sends_attempt fun _ set => ⟨_, Session.sends_setCompression set⟩
  | acknowledge id => exact ⟨[], l.session.sends_acknowledge id⟩
  | disconnect reason => exact l.session.sends_disconnect reason
  | close => exact ⟨[], l.session.sends_close⟩
  | poll | write count | unpoll rest => simp [Action.isTransfer] at other

theorem exists_framed (l : Line) {actions : List Action} (apart : ∀ a ∈ actions, a.Apart) :
    ∃ payloads, l.Framed actions payloads := by
  induction actions generalizing l with
  | nil => exact ⟨[], .nil l⟩
  | cons a actions ih =>
    obtain ⟨more, rest⟩ := ih (l.step a) fun b hb => apart b (List.mem_cons_of_mem _ hb)
    cases transfers : a.isTransfer with
    | true => exact ⟨more, .transfer transfers rest⟩
    | false =>
      obtain ⟨payloads, first⟩ := l.sends_step (apart a List.mem_cons_self) transfers
      exact ⟨payloads ++ more, .sends transfers first rest⟩

/-! ## What is queued -/

theorem queued_attempt (l : Line) (result : Except CodecError Session) :
    (l.attempt result).queued =
      l.queued ++ (l.attempt result).session.outbound.drop l.session.outbound.length := by
  cases result with
  | ok s => rfl
  | error e => simp [attempt]

/-- The queue grows at its end, and what it grows by is noted. -/
theorem queued_step (l : Line) {a : Action} (other : a.isTransfer = false) :
    (l.step a).queued =
      l.queued ++ (l.step a).session.outbound.drop l.session.outbound.length := by
  cases a with
  | receive bytes => rfl
  | meanwhile server => simp [step, session]
  | poll | write count | unpoll rest => simp [Action.isTransfer] at other
  | _ => exact l.queued_attempt _

theorem transfer_step (l : Line) {a : Action} (transfers : a.isTransfer = true) :
    (l.step a).queued = l.queued ∧ (l.step a).session.frames = l.session.frames := by
  cases a with
  | poll =>
    unfold step Session.poll
    cases l.session.outbound <;> exact ⟨rfl, rfl⟩
  | write count => exact ⟨rfl, rfl⟩
  | unpoll rest => exact ⟨rfl, rfl⟩
  | _ => simp [Action.isTransfer] at transfers

/-- Nothing that is done to a session changes its limit or its compressor. -/
theorem keeps_step (l : Line) (a : Action) :
    (l.step a).session.frames.maxLength = l.session.frames.maxLength ∧
      (l.step a).session.frames.deflate = l.session.frames.deflate := by
  have sends {b : Action} (apart : b.Apart) (other : b.isTransfer = false) :
      (l.step b).session.frames.maxLength = l.session.frames.maxLength ∧
        (l.step b).session.frames.deflate = l.session.frames.deflate :=
    let ⟨_, sends⟩ := l.sends_step apart other
    sends.keeps
  have same {t : Session} (frames : t.frames = l.session.frames) :
      t.frames.maxLength = l.session.frames.maxLength ∧
        t.frames.deflate = l.session.frames.deflate := by
    rw [frames]
    exact ⟨rfl, rfl⟩
  have attempt {result : Except CodecError Session}
      (frames : ∀ s, result = .ok s → s.frames = l.session.frames) :
      (l.attempt result).session.frames = l.session.frames := by
    cases result with
    | ok s => exact frames s rfl
    | error e => rfl
  have frames_send {m : Message} {s : Session} (sent : l.session.send gameOutbound m = .ok s) :
      s.frames = l.session.frames := by
    obtain ⟨payloads, -, rfl⟩ := exists_of_map_ok sent
    rfl
  cases a with
  | poll | write | unpoll => exact same (l.transfer_step rfl).2
  -- any message at all, a threshold included
  | send m => exact same (attempt fun s sent => frames_send sent)
  | broadcast state m =>
    refine same (attempt fun s sent => ?_)
    obtain ⟨b, -, sent⟩ := exists_of_bind_ok sent
    cases b with
    | cached state payloads =>
      cases sent
      unfold Session.sendCached
      split <;> rfl
    | perConnection state m => exact frames_send sent
  | _ => exact sends trivial rfl

theorem deflate_run (l : Line) (actions : List Action) :
    (l.run actions).session.frames.deflate = l.session.frames.deflate := by
  induction actions generalizing l with
  | nil => rfl
  | cons a actions ih => exact (ih (l.step a)).trans (l.keeps_step a).2

/-- The frames a run queues, and the framing after it, are those of a writer that follows its own
announcements. -/
theorem queued_of_framed {l : Line} {actions : List Action} {payloads : List Bytes}
    (h : l.Framed actions payloads) :
    (l.run actions).queued = l.queued ++ (l.session.frames.frameAll payloads).1 ∧
      (l.run actions).session.frames = (l.session.frames.frameAll payloads).2 := by
  induction h with
  | nil l => simp [run, Framing.frameAll]
  | @sends l a actions payloads more other first rest ih =>
    obtain ⟨queued, frames⟩ := ih
    obtain ⟨outbound₁, frames₁⟩ := first.outbound
    have queued₁ := l.queued_step other
    rw [outbound₁, List.drop_left] at queued₁
    rw [queued₁, List.append_assoc, frames₁] at queued
    rw [frames₁] at frames
    rw [Framing.frameAll_append]
    exact ⟨queued, frames⟩
  | @transfer l a actions payloads transfers rest ih =>
    obtain ⟨queued, frames⟩ := l.transfer_step transfers
    rw [queued, frames] at ih
    exact ih

/-! ## What is written -/

/-- An action that transfers nothing leaves alone what was polled and what was written. -/
theorem kept_step (l : Line) {a : Action} (other : a.isTransfer = false) :
    (l.step a).written = l.written ∧ (l.step a).held = l.held := by
  have attempt (result : Except CodecError Session) :
      (l.attempt result).written = l.written ∧ (l.attempt result).held = l.held := by
    cases result <;> exact ⟨rfl, rfl⟩
  cases a with
  | receive | meanwhile => exact ⟨rfl, rfl⟩
  | poll | write | unpoll => simp [Action.isTransfer] at other
  | _ => exact attempt _

/-- What was written, what is being written and what waits are the frames that were queued. -/
def Balanced (l : Line) : Prop :=
  l.written ++ l.held ++ l.session.outbound.flatten = l.queued.flatten

theorem balanced_step {l : Line} {a : Action} (balanced : l.Balanced) (apart : a.Apart)
    (inTurn : l.InTurn a) : (l.step a).Balanced := by
  cases transfers : a.isTransfer with
  | false =>
    obtain ⟨payloads, sends⟩ := l.sends_step apart transfers
    obtain ⟨written, held⟩ := l.kept_step transfers
    have queued := l.queued_step transfers
    rw [sends.outbound.1, List.drop_left] at queued
    rw [Balanced, written, held, sends.outbound.1, queued, List.flatten_append,
      List.flatten_append, ← List.append_assoc, balanced]
  | true =>
    cases a with
    | poll =>
      unfold step Session.poll
      cases waiting : l.session.outbound with
      | nil => exact balanced
      | cons frame outbound =>
        rw [Balanced, inTurn, waiting] at balanced
        simpa [Balanced, session] using balanced
    | write count =>
      rw [Balanced, ← List.take_append_drop count l.held] at balanced
      simpa [Balanced, step, session] using balanced
    | unpoll rest =>
      rw [Balanced, ← inTurn] at balanced
      simpa [Balanced, step, session, Session.unpoll] using balanced
    | _ => simp [Action.isTransfer] at transfers

theorem balanced_run {l : Line} {actions : List Action} (balanced : l.Balanced)
    (apart : ∀ a ∈ actions, a.Apart) (orderly : l.Orderly actions) :
    (l.run actions).Balanced := by
  induction actions generalizing l with
  | nil => exact balanced
  | cons a actions ih =>
    exact ih (balanced_step balanced (apart a List.mem_cons_self) orderly.1)
      (fun b hb => apart b (List.mem_cons_of_mem _ hb)) orderly.2

end Line

/-- **The client reads what was framed.** Whatever is done to a session from its start on, and
whatever compressor it has that can be undone, a client that takes the frames in the order in which
they were queued, and sets its threshold where a payload announces one, gets the payloads that were
framed, with no byte left over. Its limit has to admit the frames and, as one may be compressed, the
payloads in them. If every frame is written or put back before the next one is polled, the bytes
that were written, the rest of the frame that was polled and the queue are these frames. -/
theorem client_reads_payloads {deflate : Bytes → Bytes} (undoes : FrameCodec.Undoes deflate)
    (server : Server) (actions : List Action) (max : Nat) (apart : ∀ a ∈ actions, a.Apart) :
    let start := Line.start server deflate
    let l := start.run actions
    (∃ payloads, start.Framed actions payloads) ∧
    (∀ payloads, start.Framed actions payloads →
      (∀ frame ∈ l.queued, FrameCodec.Fits max (FrameCodec.bodyOf frame)) →
      (∀ payload ∈ payloads, FrameCodec.Fits max payload) →
      (FrameCodec.ofMaxLength max).readStream l.queued.flatten =
        (payloads, ⟨l.session.frames.threshold, max⟩, [])) ∧
    (start.Orderly actions →
      l.written ++ l.held ++ l.session.outbound.flatten = l.queued.flatten) := by
  intro start l
  refine ⟨Line.exists_framed _ apart, fun payloads framed bodies fit => ?_, fun orderly => ?_⟩
  · obtain ⟨queued, frames⟩ := Line.queued_of_framed framed
    have queued : l.queued = (start.session.frames.frameAll payloads).1 := queued
    rw [queued] at bodies
    rw [queued, frames]
    have threshold : (FrameCodec.ofMaxLength max).threshold = start.session.frames.threshold := rfl
    exact FrameCodec.readStream_frameAll undoes threshold bodies fit
  · exact Line.balanced_run rfl apart orderly

theorem Line.sends_setCompression {l : Line} (login : l.session.state = .login)
    (threshold : Int32) :
    l.session.Sends [FrameCodec.announcement threshold]
      (l.step (.setCompression threshold)).session := by
  obtain ⟨s, set⟩ := Session.setCompression_login login threshold
  rw [step, set]
  exact Session.sends_setCompression set

/-- A threshold is set and taken back. The first frame is written in two parts, and the second one
is queued in between. -/
def Action.twoAnnouncements : List Action :=
  [.setState .login, .setCompression 64, .poll, .write 1, .setCompression (-1), .unpoll [3, 64],
    .close, .poll, .write 2]

theorem client_reads_two_announcements :
    let start := Line.start (.start {} .acceptAll) Zlib.deflate
    let l := start.run Action.twoAnnouncements
    l.written = [2, 3, 64] ∧
      (FrameCodec.ofMaxLength 16).readStream (l.written ++ l.held ++ l.session.outbound.flatten) =
        ([[3, 64], [3, 255, 255, 255, 255, 15]], ⟨none, 16⟩, []) := by
  intro start l
  have apart : ∀ a ∈ Action.twoAnnouncements, a.Apart := by
    simp [Action.twoAnnouncements, Action.Apart]
  obtain ⟨-, reads, written⟩ :=
    client_reads_payloads FrameCodec.undoes_deflate (.start {} .acceptAll) _ 16 apart
  have queued : l.queued = [[2, 3, 64], [7, 0, 3, 255, 255, 255, 255, 15]] := by decide +kernel
  have framed : start.Framed Action.twoAnnouncements
      ([] ++ ([FrameCodec.announcement 64] ++ ([FrameCodec.announcement (-1)] ++ ([] ++ [])))) :=
    .sends rfl (.idle rfl rfl) <| .sends rfl (Line.sends_setCompression rfl 64) <|
      .transfer rfl <| .transfer rfl <|
      .sends rfl (Line.sends_setCompression (by decide +kernel) (-1)) <| .transfer rfl <|
      .sends rfl (.idle rfl rfl) <| .transfer rfl <| .transfer rfl <| .nil _
  have orderly : start.Orderly Action.twoAnnouncements := by
    refine ⟨trivial, trivial, ?_, trivial, trivial, ?_, trivial, ?_, trivial, trivial⟩
    all_goals
      show (_ : Bytes) = _
      decide +kernel
  have first : FrameCodec.announcement 64 = [3, 64] := by decide +kernel
  have second : FrameCodec.announcement (-1) = [3, 255, 255, 255, 255, 15] := by decide +kernel
  rw [first, second] at framed
  have bodies : ∀ frame ∈ l.queued, FrameCodec.Fits 16 (FrameCodec.bodyOf frame) := by
    rw [queued]
    intro frame mem
    simp only [List.mem_cons, List.not_mem_nil, or_false] at mem
    obtain rfl | rfl := mem <;> constructor <;> decide +kernel
  have fit : ∀ payload ∈ [[3, 64], [3, 255, 255, 255, 255, 15]], FrameCodec.Fits 16 payload := by
    intro payload mem
    simp only [List.mem_cons, List.not_mem_nil, or_false] at mem
    obtain rfl | rfl := mem <;> constructor <;> decide +kernel
  have threshold : l.session.frames.threshold = none := by decide +kernel
  refine ⟨by decide +kernel, ?_⟩
  rw [written orderly, reads _ framed bodies fit, threshold]
  rfl

end VoxelServer
