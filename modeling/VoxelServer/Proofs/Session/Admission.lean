import VoxelServer.Proofs.Protocol.Reading
import VoxelServer.Proofs.Session.Answering

/-!
# Who gets in

What one payload can do, by the state in which it finds the session:

* `Hosted.Stays`: a session keeps to its state and its player;
* `Hosted.Admits`: a session is let in, and greeted;
* `Hosted.dispatched`: a payload is refused, opens the session, logs a player in, or leaves the
  session in its state.
-/

namespace VoxelServer

/-! ## Sessions that stay -/

namespace Hosted

/-- The session frames some payloads, and stays in its state with the player it has. -/
structure Stays (h h' : Hosted) : Prop where
  server : h.server.Hears h'.server
  state : h'.session.state = h.session.state
  ctx : h'.session.ctx = h.session.ctx
  player : h'.session.player.map (·.identity) = h.session.player.map (·.identity)
  sends : h.Sends h'

end Hosted

theorem Server.Hears.refl (s : Server) : s.Hears s :=
  ⟨rfl, rfl, rfl, rfl, [], (List.append_nil _).symm, by simp⟩

theorem Server.Hears.trans {s t u : Server} (first : s.Hears t) (second : t.Hears u) :
    s.Hears u := by
  obtain ⟨heard, events, others⟩ := first.events
  obtain ⟨more, events', others'⟩ := second.events
  refine ⟨second.config.trans first.config, second.listeners.trans first.listeners,
    second.online.trans first.online, second.nextEntityId.trans first.nextEntityId,
    heard ++ more, ?_, ?_⟩
  · rw [events', events, List.append_assoc]
  · exact List.forall_mem_append.mpr ⟨others, others'⟩

namespace Hosted.Stays

variable {h h' : Hosted}

/-- Only the session changes, and neither its state nor its player. -/
theorem of_session {s : Session} (state : s.state = h.session.state) (ctx : s.ctx = h.session.ctx)
    (player : s.player.map (·.identity) = h.session.player.map (·.identity))
    (sends : ∃ payloads, h.session.Sends payloads s) : h.Stays { h with session := s } :=
  ⟨.refl _, state, ctx, player, sends⟩

theorem refl (h : Hosted) : h.Stays h := of_session rfl rfl rfl ⟨[], .idle rfl rfl⟩

theorem trans {a b c : Hosted} (first : a.Stays b) (second : b.Stays c) : a.Stays c where
  server := first.server.trans second.server
  state := second.state.trans first.state
  ctx := second.ctx.trans first.ctx
  player := second.player.trans first.player
  sends := first.sends.trans second.sends

theorem of_send {m : Message} {s : Session} (other : m.type ≠ .setCompression)
    (sent : h.session.send gameOutbound m = .ok s) : h.Stays { h with session := s } := by
  have sends := Session.sends_send other sent
  obtain ⟨payloads, -, rfl⟩ := exists_of_map_ok sent
  exact of_session rfl rfl rfl sends

/-- Most handlers leave a session in its state. -/
theorem stay : Hosted.Stay Hosted.Stays where
  refl := refl
  trans := trans
  send ordinary := of_send ordinary.announces
  acknowledge h id := by
    refine of_session rfl rfl ?_ ⟨[], h.session.sends_acknowledge id⟩
    simp only [Session.acknowledge, Option.map_map]
    rfl
  close h := of_session rfl rfl rfl ⟨[], h.session.sends_close⟩
  player h f same := by
    refine of_session rfl rfl ?_ ⟨[], .idle rfl rfl⟩
    rw [Option.map_map]
    exact congrArg (h.session.player.map ·) (funext fun p => (same p).2)
  server h server heard := ⟨heard, rfl, rfl, rfl, [], .idle rfl rfl⟩

theorem disconnect (h : Hosted) (reason : String) :
    h.Stays { h with session := h.session.disconnect gameOutbound reason } := by
  obtain same | ⟨t, sent, same⟩ := h.session.disconnect_cases gameOutbound reason
  · rw [same]
    exact stay.close h
  · rw [same]
    have told := of_send (by simp [Message.disconnectText, Message.type]) sent
    exact told.trans (stay.close { h with session := t })

/-- A session that fails closes where it is. -/
theorem fail (h : Hosted) (e : Disconnection) : h.Stays (h.fail Protocols.game e) :=
  disconnect h e.reason

theorem tick (h : Hosted) (now : Nat) :
    h.Stays { h with session := (h.session.tick gameOutbound h.server.config now).2 } := by
  have clock : h.Stays { h with session := { h.session with now } } :=
    of_session rfl rfl rfl ⟨[], .idle rfl rfl⟩
  unfold Session.tick
  dsimp only
  split
  · exact clock
  split
  · exact clock
  rename_i player here
  split
  · exact clock.trans (disconnect _ "Timed out")
  split
  · let asked := { player with liveness := player.liveness.sent (Int32.ofNat now) now }
    have noted : h.Stays { h with session := { h.session with now, player := some asked } } := by
      refine of_session rfl rfl ?_ ⟨[], .idle rfl rfl⟩
      rw [here]
      rfl
    split
    · rename_i sent
      exact noted.trans (of_send (by simp [Message.type]) sent)
    · exact noted
  · exact clock

end Hosted.Stays

/-! ## What is read in which state -/

namespace Hosted

variable {h : Hosted} {payload : Bytes} {m : Message}

/-- A payload that is not read is refused. -/
theorem dispatch_of_unread (unread : h.message? Protocols.game payload = none) :
    ∃ e, h.dispatch Protocols.game payload = (.error e, h) := by
  unfold message? at unread
  cases header : (Wire.decode : Decoder VarInt) payload with
  | error e =>
    simp only [dispatch, handlePayload, SessionM.run_bind, SessionM.run_get, header]
    exact ⟨_, rfl⟩
  | ok front =>
    obtain ⟨opcode, body⟩ := front
    simp only [header] at unread
    simp only [dispatch, handlePayload, SessionM.run_bind, SessionM.run_get, SessionM.run_pure,
      header]
    cases found : (Protocols.game.inbound.get h.session.state).byOpcode? opcode.value with
    | none => exact ⟨_, rfl⟩
    | some entry =>
      simp only [found] at unread ⊢
      cases decoded : entry.codec.decode h.session.ctx body with
      | error e => exact ⟨_, rfl⟩
      | ok m => simp [decoded, Except.toOption] at unread

/-- What is read is a message of the state, as the body of its type reads it. -/
theorem read_of_message? (read : h.message? Protocols.game payload = some m) :
    ∃ row ∈ h.session.state.inboundTable, ∃ body rest, row.2.body body = .ok (m, rest) := by
  obtain ⟨opcode, body, entry, -, found, decoded⟩ := exists_of_message? read
  obtain ⟨row, bound, -, rfl⟩ := row_of_gameInbound found
  have first : row.2.body.first body = .ok m := decoded
  obtain ⟨⟨m', rest⟩, front, rfl⟩ := exists_of_map_ok first
  exact ⟨row, bound, body, rest, front⟩

theorem type_of_message? (read : h.message? Protocols.game payload = some m) :
    m.type ∈ h.session.state.inboundTable.map (·.2) := by
  obtain ⟨row, bound, body, rest, decoded⟩ := read_of_message? read
  rw [row.2.yields_body body m rest decoded]
  exact List.mem_map_of_mem bound

end Hosted

/-! ## Logging in -/

/-- What a player is told on the way in, each message in the state in which it is sent. -/
def Player.greeting (player : Player) (config : Config) : List (ProtocolState × Message) :=
  (if 0 ≤ config.compressionThreshold then
    [(.login, .setCompression config.compressionThreshold)] else []) ++
    [(.login, .loginSuccess player.uuid player.name), (.play, player.joinGame config),
      (.play, player.placement)]

/-- The payloads of some messages, each as its state encodes it. -/
def payloadsOf (ctx : CodecContext) (messages : List (ProtocolState × Message)) :
    Except CodecError (List Bytes) :=
  List.flatten <$> messages.mapM fun (state, m) => (gameOutbound.get state).encode ctx m

theorem payloadsOf_cons {ctx : CodecContext} {state : ProtocolState} {m : Message}
    {messages : List (ProtocolState × Message)} {payloads more : List Bytes}
    (first : (gameOutbound.get state).encode ctx m = .ok payloads)
    (rest : payloadsOf ctx messages = .ok more) :
    payloadsOf ctx ((state, m) :: messages) = .ok (payloads ++ more) := by
  obtain ⟨lists, encoded, rfl⟩ := exists_of_map_ok rest
  simp only [payloadsOf, List.mapM_cons, first, encoded]
  rfl

/-- The payloads that greet a player, each an opcode and a body: the threshold if there is one, the
name with its identity, the game to join under the player's own number, and the place in it. -/
def Player.Greets (p : Player) (config : Config) (payloads : List Bytes) : Prop :=
  ∃ (game : JoinGame) (place : PlayerPositionAndLook) (named joined placed : Bytes),
    game.entityId = p.entityId ∧ place.position = p.position ∧
    (Message.loginSuccess p.uuid p.name).encodeBody = .ok named ∧
    (Message.joinGame game).encodeBody = .ok joined ∧
    (Message.playerPositionAndLook place).encodeBody = .ok placed ∧
    payloads =
      (if 0 ≤ config.compressionThreshold then
        [0x03 :: Message.varInt config.compressionThreshold] else []) ++
      [0x02 :: named, 0x23 :: joined, 0x2E :: placed]

/-- The opcode of a small number is one byte. -/
theorem encode_opcode {n : Int32} (small : n.toUInt32.toNat < 128) :
    Wire.encode (VarInt.mk n) = [UInt8.ofNat n.toUInt32.toNat] := by
  show encodeVarNum n.toUInt32.toNat = _
  rw [encodeVarNum, if_pos small]

/-- That is what the messages of the greeting are encoded as. -/
theorem Player.greets_of_payloadsOf {p : Player} {config : Config} {ctx : CodecContext}
    {payloads : List Bytes} (encoded : payloadsOf ctx (p.greeting config) = .ok payloads) :
    p.Greets config payloads := by
  have ofLogin : ∀ q ∈ ProtocolState.login.processors, q.type ≠ .loginSuccess := by decide
  have ofJoin : ∀ q ∈ ProtocolState.play.processors, q.type ≠ .joinGame := by decide
  have ofPlace : ∀ q ∈ ProtocolState.play.processors, q.type ≠ .playerPositionAndLook := by decide
  have success : (0x02, .loginSuccess) ∈ ProtocolState.login.outboundTable := by decide
  have joining : (0x23, .joinGame) ∈ ProtocolState.play.outboundTable := by decide
  have placing : (0x2E, .playerPositionAndLook) ∈ ProtocolState.play.outboundTable := by decide
  obtain ⟨game, join, joins, number, joined⟩ : ∃ game join, p.joinGame config = .joinGame game ∧
      game.entityId = p.entityId ∧ (Message.joinGame game).encodeBody = .ok join :=
    ⟨_, _, rfl, rfl, rfl⟩
  obtain ⟨place, here, places, position, placed⟩ : ∃ place here,
      p.placement = .playerPositionAndLook place ∧ place.position = p.position ∧
      (Message.playerPositionAndLook place).encodeBody = .ok here := ⟨_, _, rfl, rfl, rfl⟩
  have announced : (gameOutbound.get .login).encode ctx
      (.setCompression config.compressionThreshold) =
        .ok [0x03 :: Message.varInt config.compressionThreshold] := encode_announcement ctx _
  have named : (Message.loginSuccess p.uuid p.name).encodeBody = .ok _ := rfl
  have first := encode_of_body ofLogin ctx success rfl named
  have second := encode_of_body ofJoin ctx joining rfl joined
  have third := encode_of_body ofPlace ctx placing rfl placed
  rw [encode_opcode (by decide)] at first second third
  have nothing : payloadsOf ctx [] = .ok [] := rfl
  have rest := payloadsOf_cons first (payloadsOf_cons second (payloadsOf_cons third nothing))
  refine ⟨game, place, _, join, here, number, position, rfl, joined, placed, ?_⟩
  rw [greeting, joins, places] at encoded
  split at encoded
  · rename_i compresses
    rw [if_pos compresses]
    exact Except.ok.inj (encoded.symm.trans (payloadsOf_cons announced rest))
  · rename_i compresses
    rw [if_neg compresses]
    exact Except.ok.inj (encoded.symm.trans rest)

namespace Session

variable {s t : Session}

theorem send_of_encode {m : Message} {payloads : List Bytes}
    (encoded : (gameOutbound.get s.state).encode s.ctx m = .ok payloads) :
    s.send gameOutbound m = .ok (s.queue payloads) := by
  rw [send, encoded]
  rfl

/-- Who logs in or plays can be told why the session ends. -/
theorem disconnect_told (told : s.state = .login ∨ s.state = .play) (reason : String) :
    ∃ goodbye, (gameOutbound.get s.state).encode s.ctx (.disconnectText reason) = .ok [goodbye] ∧
      s.disconnect gameOutbound reason = (s.queue [goodbye]).close := by
  have known : ∃ row ∈ s.state.outboundTable, row.2 = .disconnect := by
    obtain state | state := told <;> rw [state] <;> decide
  have alone : ∀ p ∈ s.state.processors, p.type ≠ .disconnect := by cases s.state <;> decide
  obtain ⟨goodbye, encoded⟩ : ∃ p, (gameOutbound.get s.state).encode s.ctx
      (.disconnectText reason) = .ok [p] := exists_encode .disconnect rfl alone known rfl _
  refine ⟨goodbye, encoded, ?_⟩
  rw [disconnect, if_pos ((gameOutbound_contains _ _).mpr known), send_of_encode encoded]

/-- All others cannot. -/
theorem disconnect_untold (untold : s.state = .handshake ∨ s.state = .status) (reason : String) :
    s.disconnect gameOutbound reason = s.close := by
  have unknown : ¬ ∃ row ∈ s.state.outboundTable, row.2 = .disconnect := by
    obtain state | state := untold <;> rw [state] <;> decide
  rw [disconnect, if_neg (mt (gameOutbound_contains _ _).mp unknown)]

theorem sends_queue {m : Message} {payloads : List Bytes}
    (encoded : (gameOutbound.get s.state).encode s.ctx m = .ok payloads)
    (other : m.type ≠ .setCompression) : s.Sends payloads (s.queue payloads) :=
  .queue s (encode_plain encoded other)

end Session

namespace Hosted

/-- The player that a session gets next. -/
def newPlayer (h : Hosted) (name : String) : Player :=
  .new name (.ofOfflineName name) h.server.nextEntityId h.session.now

/-- A session is let in, with a player of its own, and frames some payloads on the way. -/
structure Admits (name : String) (payloads : List Bytes) (h h' : Hosted) : Prop where
  state : h'.session.state = .play
  ctx : h'.session.ctx = h.session.ctx
  player : h'.session.player = some (h.newPlayer name)
  sends : h.session.Sends payloads h'.session
  config : h'.server.config = h.server.config
  listeners : h'.server.listeners = h.server.listeners
  online : h'.server.online = h.server.online + if h.session.player.isNone then 1 else 0
  nextEntityId : h'.server.nextEntityId = h.server.nextEntityId + 1
  events : h'.server.events = h.server.events ++
    [.join (h.server.listeners.join h.server.events
      ⟨name, .ofOfflineName name, h.server.nextEntityId⟩)]

variable {h h' : Hosted} {name : String}

open SessionM

/-- A player is counted once for the session. -/
theorem server_join (h : Hosted) (player : Player) :
    (h.join player).server =
      { h.server with
        online := h.server.online + if h.session.player.isNone then 1 else 0 } := by
  unfold join
  dsimp only
  split <;> rfl

/-- A welcome tells a player what it knows, and posts that there is another one. -/
theorem run_welcome (h : Hosted) (name : String) :
    welcome name (.ofOfflineName name) gameOutbound h =
      (do
        SessionM.send ((h.newPlayer name).joinGame h.server.config)
        SessionM.send (h.newPlayer name).placement
        modifyServer (·.postJoin ⟨name, .ofOfflineName name, h.server.nextEntityId⟩) :
          SessionM Unit)
        gameOutbound (join ⟨h.session, h.server.takeEntityId.2⟩ (h.newPlayer name)) := rfl

/-- Nothing can go wrong once a player is told of the success. -/
theorem admits_of_success (waiting : h.session.state = .login) {success joinGame placement : Bytes}
    (first : (gameOutbound.get .login).encode h.session.ctx
      (.loginSuccess (.ofOfflineName name) name) = .ok [success])
    (second : (gameOutbound.get .play).encode h.session.ctx
      ((h.newPlayer name).joinGame h.server.config) = .ok [joinGame])
    (third : (gameOutbound.get .play).encode h.session.ctx (h.newPlayer name).placement =
      .ok [placement]) :
    ∃ h', (do
        SessionM.send (.loginSuccess (.ofOfflineName name) name)
        setState .play
        welcome name (.ofOfflineName name) : SessionM Unit) gameOutbound h = (.ok (), h') ∧
      Admits name [success, joinGame, placement] h h' := by
  let s := h.session.queue [success]
  have told : h.session.send gameOutbound (.loginSuccess (.ofOfflineName name) name) = .ok s :=
    Session.send_of_encode (by rw [waiting]; exact first)
  let t := { s with state := .play }
  have moved : s.setState .play = .ok t := by
    have allowed : s.state.canMoveTo .play = true := by
      rw [show s.state = .login from waiting]
      rfl
    rw [Session.setState, if_pos allowed]
  let seated := join ⟨t, h.server.takeEntityId.2⟩ (h.newPlayer name)
  have joined : seated.session.send gameOutbound ((h.newPlayer name).joinGame h.server.config) =
      .ok (seated.session.queue [joinGame]) := Session.send_of_encode second
  have placed : (seated.session.queue [joinGame]).send gameOutbound (h.newPlayer name).placement =
      .ok ((seated.session.queue [joinGame]).queue [placement]) := Session.send_of_encode third
  refine ⟨⟨(seated.session.queue [joinGame]).queue [placement],
    seated.server.postJoin ⟨name, .ofOfflineName name, h.server.nextEntityId⟩⟩, ?_, ?_⟩
  · rw [run_bind, SessionM.send, run_tryModify told]
    dsimp only
    rw [run_bind, setState, run_tryModify moved]
    dsimp only
    rw [run_welcome, run_bind, SessionM.send, run_tryModify joined]
    dsimp only
    rw [run_bind, SessionM.send, run_tryModify placed]
    rfl
  · have start : h.session.Sends [success] s :=
      Session.sends_queue (by rw [waiting]; exact first) (by simp [Message.type])
    have seat : s.Sends [] seated.session := .idle rfl rfl
    have join : seated.session.Sends [joinGame] (seated.session.queue [joinGame]) :=
      Session.sends_queue second (by simp [Player.joinGame, Message.type])
    have place : (seated.session.queue [joinGame]).Sends [placement]
        ((seated.session.queue [joinGame]).queue [placement]) :=
      Session.sends_queue third (by simp [Player.placement, Message.type])
    have server : seated.server =
        { h.server.takeEntityId.2 with
          online := h.server.online + if h.session.player.isNone then 1 else 0 } :=
      server_join _ _
    rw [server]
    exact ⟨rfl, rfl, rfl, start.trans (seat.trans (join.trans place)), rfl, rfl, rfl, rfl, rfl⟩

/-- What was announced to a session before it was let in belongs to the greeting. -/
theorem Admits.after {s : Session} {payloads more : List Bytes}
    (first : h.session.Sends payloads s) (ctx : s.ctx = h.session.ctx)
    (player : s.player = h.session.player) (now : s.now = h.session.now)
    (second : Admits name more { h with session := s } h') :
    Admits name (payloads ++ more) h h' where
  state := second.state
  ctx := second.ctx.trans ctx
  player := by rw [second.player, newPlayer, newPlayer, now]
  sends := first.trans second.sends
  config := second.config
  listeners := second.listeners
  online := by rw [second.online, player]
  nextEntityId := second.nextEntityId
  events := second.events

/-- A player's login is refused, and nothing happens, or the player is let in and greeted. -/
theorem login_cases (waiting : h.session.state = .login) (name : String) :
    (∃ e, handleLoginStart name gameOutbound h = (.error e, h)) ∨
      h.server.isFull = false ∧ isPlayerName name = true ∧
      ∃ payloads h', payloadsOf h.session.ctx ((h.newPlayer name).greeting h.server.config) =
          .ok payloads ∧
        handleLoginStart name gameOutbound h = (.ok (), h') ∧ Admits name payloads h h' := by
  unfold handleLoginStart
  rw [run_bind, run_get]
  dsimp only
  split
  · exact .inl ⟨_, rfl⟩
  rename_i room
  split
  · exact .inl ⟨_, rfl⟩
  rename_i fine
  refine .inr ⟨by simpa using room, by simpa using fine, ?_⟩
  obtain ⟨success, first⟩ : ∃ p, (gameOutbound.get .login).encode h.session.ctx
      (.loginSuccess (.ofOfflineName name) name) = .ok [p] :=
    exists_encode .loginSuccess rfl (by decide) (by decide) rfl _
  obtain ⟨joinGame, second⟩ : ∃ p, (gameOutbound.get .play).encode h.session.ctx
      ((h.newPlayer name).joinGame h.server.config) = .ok [p] :=
    exists_encode .joinGame rfl (by decide) (by decide) rfl _
  obtain ⟨placement, third⟩ : ∃ p, (gameOutbound.get .play).encode h.session.ctx
      (h.newPlayer name).placement = .ok [p] :=
    exists_encode .playerPositionAndLook rfl (by decide) (by decide) rfl _
  have rest : payloadsOf h.session.ctx
      [(.login, .loginSuccess (h.newPlayer name).uuid (h.newPlayer name).name),
        (.play, (h.newPlayer name).joinGame h.server.config),
        (.play, (h.newPlayer name).placement)] = .ok [success, joinGame, placement] :=
    payloadsOf_cons first (payloadsOf_cons second (payloadsOf_cons third rfl))
  split
  · rename_i compresses
    let threshold := h.server.config.compressionThreshold
    obtain ⟨announced, encoded⟩ : ∃ p, (gameOutbound.get .login).encode h.session.ctx
        (.setCompression threshold) = .ok [p] := ⟨_, encode_announcement _ threshold⟩
    let s := { h.session.queue [announced] with
      frames := h.session.frames.setCompression threshold }
    have set : h.session.setCompression gameOutbound threshold = .ok s := by
      rw [Session.setCompression, Session.send_of_encode (by rw [waiting]; exact encoded)]
      rfl
    have told : h.session.Sends [announced] s := by
      rw [encode_setCompression encoded]
      exact Session.sends_setCompression set
    obtain ⟨h', run, admits⟩ :=
      admits_of_success (h := { h with session := s }) waiting first second third
    refine ⟨_, h', ?_, ?_, .after told rfl rfl rfl admits⟩
    · rw [Player.greeting, if_pos compresses]
      exact payloadsOf_cons encoded rest
    · rw [run_bind, setCompression, run_tryModify set]
      exact run
  · rename_i compresses
    obtain ⟨h', run, admits⟩ := admits_of_success waiting first second third
    refine ⟨_, h', ?_, run, admits⟩
    rw [Player.greeting, if_neg compresses]
    exact rest

/-! ## Opening a session -/

/-- A handshake is refused, and nothing happens, or the session moves to the state it asks for.
A client of another version that wants to play is told so, in the state for logins. -/
theorem handshake_cases (new : h.session.state = .handshake) (m : Handshake) :
    (ProtocolState.ofHandshake? m.nextState = none ∧
        ∃ e, m.handle gameOutbound h = (.error e, h)) ∨
      ∃ next, ProtocolState.ofHandshake? m.nextState = some next ∧
        (next = .status ∨ next = .login) ∧
        m.handle gameOutbound h =
          (if next = .login && m.protocolVersion != spokenVersion then
            .error (.kicked (versionReason m.protocolVersion)) else .ok (),
          { h with
            session := { h.session with
              state := next
              ctx := { protocolVersion := m.protocolVersion, forge := m.isModded } } }) := by
  unfold Handshake.handle
  cases asked : ProtocolState.ofHandshake? m.nextState with
  | none => exact .inl ⟨rfl, _, rfl⟩
  | some next =>
    have known : next = .status ∨ next = .login := by
      unfold ProtocolState.ofHandshake? at asked
      split at asked
      · exact .inl (Option.some.inj asked).symm
      split at asked
      · exact .inr (Option.some.inj asked).symm
      · cases asked
    refine .inr ⟨next, rfl, known, ?_⟩
    let s := { h.session with
      ctx := { protocolVersion := m.protocolVersion, forge := m.isModded } }
    have moved : s.setState next = .ok { s with state := next } := by
      have allowed : s.state.canMoveTo next = true := by
        rw [show s.state = .handshake from new]
        obtain rfl | rfl := known <;> rfl
      rw [Session.setState, if_pos allowed]
    have greeted : modifySession (fun s => { s with
        ctx := { protocolVersion := m.protocolVersion, forge := m.isModded } }) gameOutbound h =
      (.ok (), { h with session := s }) := rfl
    dsimp only
    rw [run_bind, greeted]
    dsimp only
    rw [run_bind, setState, run_tryModify moved]
    dsimp only
    split <;> rfl

/-! ## One payload -/

/-- What a payload does to a session. -/
inductive Dispatched (h : Hosted) : Except Disconnection Unit → Hosted → Prop
  /-- Nothing happens. -/
  | refused (e : Disconnection) : Dispatched h (.error e) h
  /-- The session moves to the state its client asks for. -/
  | opened {result : Except Disconnection Unit} {next : ProtocolState} {ctx : CodecContext}
      (new : h.session.state = .handshake) (asked : next = .status ∨ next = .login)
      (version : result = .ok () → next = .login → ctx.protocolVersion = spokenVersion) :
      Dispatched h result { h with session := { h.session with state := next, ctx } }
  /-- A player is let in. -/
  | admitted {name : String} {payloads : List Bytes} {h' : Hosted}
      (waiting : h.session.state = .login) (room : h.server.isFull = false)
      (fine : isPlayerName name = true) (short : name.length ≤ maxNameLength)
      (greeting : payloadsOf h.session.ctx ((h.newPlayer name).greeting h.server.config) =
        .ok payloads)
      (admits : Admits name payloads h h') : Dispatched h (.ok ()) h'
  /-- The session stays as it is, where its client is told the status or plays. -/
  | stayed {result : Except Disconnection Unit} {h' : Hosted}
      (settled : h.session.state = .status ∨ h.session.state = .play) (stays : h.Stays h') :
      Dispatched h result h'

/-- A name that is read is short. -/
theorem length_of_loginStart {payload : Bytes}
    (read : h.message? Protocols.game payload = some (.loginStart name)) :
    name.length ≤ maxNameLength := by
  obtain ⟨row, -, body, rest, decoded⟩ := read_of_message? read
  have type := row.2.yields_body body _ rest decoded
  rw [← type] at decoded
  obtain ⟨same, named, short⟩ := MessageType.yields_loginStart body _ rest decoded
  cases named
  exact short

/-- Where a login is awaited a payload lets a player in, or it is refused and nothing happens. -/
theorem dispatch_login (waiting : h.session.state = .login) (payload : Bytes) :
    (∃ e, h.dispatch Protocols.game payload = (.error e, h)) ∨
      ∃ name, h.message? Protocols.game payload = some (.loginStart name) ∧
        h.server.isFull = false ∧ isPlayerName name = true ∧ name.length ≤ maxNameLength ∧
        ∃ payloads h', payloadsOf h.session.ctx ((h.newPlayer name).greeting h.server.config) =
            .ok payloads ∧
          h.dispatch Protocols.game payload = (.ok (), h') ∧ Admits name payloads h h' := by
  cases read : h.message? Protocols.game payload with
  | none => exact .inl (dispatch_of_unread read)
  | some m =>
    have bound := type_of_message? read
    rw [waiting] at bound
    obtain ⟨name, rfl⟩ : ∃ name, m = .loginStart name := by
      cases m <;> simp_all [ProtocolState.inboundTable, Message.type]
    have short := length_of_loginStart read
    rw [dispatch_of_message? read]
    obtain refused | ⟨room, fine, admitted⟩ := login_cases waiting name
    · exact .inl refused
    · exact .inr ⟨name, rfl, room, fine, short, admitted⟩

/-- A client of another version cannot log in. -/
theorem dispatch_outdated {payload : Bytes} {m : Handshake}
    (read : h.message? Protocols.game payload = some (.handshake m)) (wants : m.nextState = 2)
    (other : m.protocolVersion ≠ spokenVersion) :
    (h.dispatch Protocols.game payload).1 =
      .error (.kicked (versionReason m.protocolVersion)) := by
  have new : h.session.state = .handshake := by
    have bound := type_of_message? read
    cases state : h.session.state with
    | handshake => rfl
    | status | login | play =>
      rw [state] at bound
      simp [ProtocolState.inboundTable, Message.type] at bound
  have login : ProtocolState.ofHandshake? m.nextState = some .login := by
    rw [wants]
    rfl
  rw [dispatch_of_message? read]
  obtain ⟨none, -⟩ | ⟨next, asked, -, opened⟩ := handshake_cases new m
  · cases login.symm.trans none
  · cases login.symm.trans asked
    rw [Message.handle, opened]
    exact if_pos (by simpa using other)

/-- Where a handshake is awaited nothing happens, or the session moves on. -/
theorem dispatched_of_new (new : h.session.state = .handshake) (payload : Bytes) :
    h.Dispatched (h.dispatch Protocols.game payload).1 (h.dispatch Protocols.game payload).2 := by
  cases read : h.message? Protocols.game payload with
  | none =>
    obtain ⟨e, refused⟩ := dispatch_of_unread read
    rw [refused]
    exact .refused e
  | some m =>
    have bound := type_of_message? read
    rw [new] at bound
    obtain ⟨m, rfl⟩ : ∃ m', m = .handshake m' := by
      cases m <;> simp_all [ProtocolState.inboundTable, Message.type]
    rw [dispatch_of_message? read]
    obtain ⟨-, e, refused⟩ | ⟨next, -, known, opened⟩ := handshake_cases new m
    · rw [Message.handle, refused]
      exact .refused e
    · rw [Message.handle, opened]
      refine .opened new known fun done login => Decidable.byContradiction fun other => ?_
      have outdated : (next = .login && m.protocolVersion != spokenVersion) = true := by
        simpa [login] using other
      rw [if_pos outdated] at done
      cases done

/-- All other messages leave the session where it is. -/
theorem stays_dispatch (settled : h.session.state = .status ∨ h.session.state = .play)
    (payload : Bytes) : h.Stays (h.dispatch Protocols.game payload).2 := by
  cases read : h.message? Protocols.game payload with
  | none =>
    obtain ⟨e, refused⟩ := dispatch_of_unread read
    rw [refused]
    exact .refl h
  | some m =>
    have bound := type_of_message? read
    rw [dispatch_of_message? read]
    refine Stays.stay.handle_within ?_ ?_ h
    all_goals
      intro type
      rw [type] at bound
      obtain state | state := settled <;> simp [state, ProtocolState.inboundTable] at bound

theorem dispatched (h : Hosted) (payload : Bytes) :
    h.Dispatched (h.dispatch Protocols.game payload).1 (h.dispatch Protocols.game payload).2 := by
  cases state : h.session.state with
  | handshake => exact dispatched_of_new state payload
  | login =>
    obtain ⟨e, refused⟩ | ⟨name, -, room, fine, short, payloads, h', greeting, run, admits⟩ :=
      dispatch_login state payload
    · rw [refused]
      exact .refused e
    · rw [run]
      exact .admitted state room fine short greeting admits
  | status => exact .stayed (.inl state) (stays_dispatch (.inl state) payload)
  | play => exact .stayed (.inr state) (stays_dispatch (.inr state) payload)

end Hosted

end VoxelServer
