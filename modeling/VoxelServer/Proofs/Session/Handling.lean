import VoxelServer.Proofs.Protocol.Opcodes
import VoxelServer.Proofs.Session.Program

/-!
# What handling a client's bytes does

The handlers of the game act through few operations, and what all of these keep the handlers keep.
Only a handshake and a login go anywhere, so there are two lists of operations:

* `Hosted.Stay`: a relation of hosted sessions that the operations of all other handlers stay
  within, and `Hosted.Stay.handle_within`, that these handlers do;
* `Hosted.Course`: the same for all operations;
* `Hosted.Course.handle_within`: so does every handler;
* `Hosted.Course.receive_within`: so do the bytes of a client, if ending a session for a reason
  does, in whatever state they find the connection.
-/

namespace VoxelServer

/-- Who a player is. -/
def Player.identity (player : Player) : String × Uuid × Int32 :=
  (player.name, player.uuid, player.entityId)

def Event.isJoin : Event → Bool
  | join _ => true
  | _ => false

/-- A server hears what its players do. Nobody joins or leaves. -/
structure Server.Hears (s t : Server) : Prop where
  config : t.config = s.config
  listeners : t.listeners = s.listeners
  online : t.online = s.online
  nextEntityId : t.nextEntityId = s.nextEntityId
  events : ∃ heard, t.events = s.events ++ heard ∧ ∀ e ∈ heard, e.isJoin = false

theorem Server.hears_record (s : Server) {e : Event} (other : e.isJoin = false) :
    s.Hears (s.record e) :=
  ⟨rfl, rfl, rfl, rfl, [e], rfl, by simpa using other⟩

/-- What the operations of handlers stay within, but for those of a handshake and a login. -/
structure Hosted.Stay (R : Hosted → Hosted → Prop) : Prop where
  refl (h : Hosted) : R h h
  trans {a b c : Hosted} : R a b → R b c → R a c
  send {h : Hosted} {m : Message} {s : Session} : m.type.Ordinary →
    h.session.send gameOutbound m = .ok s → R h { h with session := s }
  acknowledge (h : Hosted) (id : Int32) : R h { h with session := h.session.acknowledge id }
  close (h : Hosted) : R h { h with session := h.session.close }
  player (h : Hosted) {f : Player → Player} :
    (∀ p, (f p).liveness = p.liveness ∧ (f p).identity = p.identity) →
    R h { h with session := { h.session with player := h.session.player.map f } }
  server (h : Hosted) {server : Server} : h.server.Hears server → R h { h with server }

/-- What the operations of handlers stay within. -/
structure Hosted.Course (R : Hosted → Hosted → Prop) : Prop extends Hosted.Stay R where
  announce {h : Hosted} {threshold : Int32} {s : Session} :
    h.session.setCompression gameOutbound threshold = .ok s → R h { h with session := s }
  move {h : Hosted} {next : ProtocolState} {s : Session} :
    h.session.setState next = .ok s → R h { h with session := s }
  /-- A client may play, and gets a player at once. -/
  enter {h : Hosted} {s : Session} {server : Server} {player : Player} :
    h.session.setState .play = .ok s → server.config = h.server.config →
      player.liveness = .start s.now → R h (Hosted.join ⟨s, server⟩ player)
  postJoin (h : Hosted) (e : JoinEvent) : R h { h with server := h.server.postJoin e }
  greet (h : Hosted) (ctx : CodecContext) : R h { h with session := { h.session with ctx } }

variable {R : Hosted → Hosted → Prop}

open SessionM

namespace Hosted.Stay

variable (stay : Hosted.Stay R)

include stay

/-! ## Programs of handlers -/

theorem bind {α β : Type} {x : SessionM α} {f : α → SessionM β} (hx : x.Within gameOutbound R)
    (hf : ∀ a, (f a).Within gameOutbound R) : (x >>= f).Within gameOutbound R :=
  Within.bind stay.trans hx hf

theorem get_bind {α : Type} {f : Hosted → SessionM α} (hf : ∀ h, (f h).Within gameOutbound R) :
    ((get : SessionM Hosted) >>= f).Within gameOutbound R :=
  stay.bind (Within.get stay.refl) hf

theorem pure_within {α : Type} (a : α) : (pure a : SessionM α).Within gameOutbound R :=
  Within.pure stay.refl a

theorem refuse_within {α : Type} (e : CodecError) :
    (refuse e : SessionM α).Within gameOutbound R :=
  Within.refuse stay.refl e

theorem kick_within (reason : String) : (kick reason).Within gameOutbound R :=
  Within.kick stay.refl reason

theorem send_within {m : Message} (ordinary : m.type.Ordinary) :
    (SessionM.send m).Within gameOutbound R :=
  Within.tryModify stay.refl fun _ _ sent => stay.send ordinary sent

theorem sendAll_within {messages : List Message}
    (ordinary : ∀ m ∈ messages, m.type.Ordinary) :
    (sendAll messages).Within gameOutbound R := by
  induction messages with
  | nil => exact stay.pure_within ()
  | cons m messages ih =>
    exact stay.bind (stay.send_within (ordinary m List.mem_cons_self)) fun _ =>
      ih fun m hm => ordinary m (List.mem_cons_of_mem _ hm)

theorem record_within {e : Event} (other : e.isJoin = false) :
    (modifyServer (·.record e)).Within gameOutbound R :=
  Within.modifyServer fun h => stay.server h (h.server.hears_record other)

theorem modifyPlayer_within {f : Player → Player}
    (same : ∀ p, (f p).liveness = p.liveness ∧ (f p).identity = p.identity) :
    (modifyPlayer f).Within gameOutbound R :=
  Within.modifyPlayer fun h => stay.player h same

theorem withPlayer_within {run : Player → SessionM Unit}
    (hr : ∀ player, (run player).Within gameOutbound R) :
    (withPlayer run).Within gameOutbound R := by
  refine stay.get_bind fun h => ?_
  split
  · exact stay.pure_within ()
  · exact hr _

/-! ## The handlers that stay -/

theorem status_within : handleStatusRequest.Within gameOutbound R :=
  stay.get_bind fun _ => stay.send_within ⟨nofun, nofun⟩

theorem ping_within (payload : Int64) : (handlePing payload).Within gameOutbound R :=
  stay.bind (stay.send_within ⟨nofun, nofun⟩) fun _ =>
    Within.modifySession fun h => stay.close h

theorem chat_within (text : String) : (handleChat text).Within gameOutbound R := by
  refine stay.withPlayer_within fun player => ?_
  dsimp only
  split
  · exact stay.pure_within ()
  split
  · exact stay.kick_within _
  · intro h
    refine stay.server h ?_
    dsimp only
    split <;> exact ⟨rfl, rfl, rfl, rfl, [_], rfl, by simp [Event.isJoin]⟩

theorem settle_within {E : Type} (result : Except CodecError (Outcome E)) {toEvent : E → Event}
    (other : ∀ e, (toEvent e).isJoin = false) :
    (settle result toEvent).Within gameOutbound R := by
  unfold settle
  split
  · exact stay.refuse_within _
  · rename_i outcome
    refine stay.bind (stay.modifyPlayer_within fun _ => ⟨rfl, rfl⟩) fun _ => ?_
    have answers : (sendAll (outcome.replies.map Reply.message)).Within gameOutbound R := by
      refine stay.sendAll_within fun m hm => ?_
      obtain ⟨reply, -, rfl⟩ := List.mem_map.mp hm
      cases reply <;> exact ⟨nofun, nofun⟩
    split
    · exact answers
    · exact stay.bind (stay.record_within (other _)) fun _ => answers

/-- All messages but those that open a session and log in. -/
theorem handle_within {m : Message} (opened : m.type ≠ .handshake) (logged : m.type ≠ .loginStart) :
    m.handle.Within gameOutbound R := by
  cases m with
  | handshake => exact absurd rfl opened
  | loginStart => exact absurd rfl logged
  | statusRequest => exact stay.status_within
  | ping payload => exact stay.ping_within payload
  | incomingChat text => exact stay.chat_within text
  | clickWindow m =>
    exact stay.withPlayer_within fun _ => stay.get_bind fun _ =>
      stay.settle_within _ fun _ => rfl
  | creativeInventoryAction m =>
    refine stay.withPlayer_within fun player => ?_
    split
    · exact stay.kick_within _
    · exact stay.get_bind fun _ => stay.settle_within _ fun _ => rfl
  | keepAlive id => exact Within.modifySession fun h => stay.acknowledge h id
  | clientSettings | closeWindow | playerPosition | playerPositionRotation | playerRotation
  | playerOnGround => exact stay.modifyPlayer_within fun _ => ⟨rfl, rfl⟩
  | _ => exact stay.pure_within ()

end Hosted.Stay

/-! ## The handlers that move on -/

namespace Hosted.Course

variable (course : Hosted.Course R)

include course

theorem setState_within (next : ProtocolState) : (setState next).Within gameOutbound R :=
  Within.tryModify course.refl fun _ _ moved => course.move moved

theorem setCompression_within (threshold : Int32) :
    (setCompression threshold).Within gameOutbound R :=
  Within.tryModify course.refl fun _ _ set => course.announce set

theorem handshake_within (m : Handshake) : m.handle.Within gameOutbound R := by
  unfold Handshake.handle
  split
  · exact course.refuse_within _
  · refine course.bind (Within.modifySession fun h => course.greet h _) fun _ =>
      course.bind (course.setState_within _) fun _ => ?_
    split
    · exact course.kick_within _
    · exact course.pure_within ()

/-- A client that may play gets its player in the same step. -/
theorem welcome_within (name : String) (uuid : Uuid) :
    (do setState .play; welcome name uuid).Within gameOutbound R := by
  intro h
  cases moved : h.session.setState .play with
  | error e =>
    rw [run_bind, setState, run_tryModify_error moved]
    exact course.refl h
  | ok s =>
    let server := h.server.takeEntityId.2
    let player := Player.new name uuid h.server.takeEntityId.1 s.now
    have joined : R h (Hosted.join ⟨s, server⟩ player) := course.enter moved rfl rfl
    have greeted : (do
        SessionM.send (player.joinGame server.config)
        SessionM.send player.placement
        modifyServer (·.postJoin ⟨name, uuid, player.entityId⟩)).Within gameOutbound R :=
      course.bind (course.send_within ⟨nofun, nofun⟩) fun _ =>
        course.bind (course.send_within ⟨nofun, nofun⟩) fun _ =>
          Within.modifyServer fun h => course.postJoin h _
    rw [run_bind, setState, run_tryModify moved]
    exact course.trans joined (greeted (Hosted.join ⟨s, server⟩ player))

theorem login_within (name : String) : (handleLoginStart name).Within gameOutbound R := by
  refine course.get_bind fun h => ?_
  dsimp only
  split
  · exact course.kick_within _
  split
  · exact course.kick_within _
  have rest : ∀ uuid, (do
      SessionM.send (.loginSuccess uuid name)
      setState .play
      welcome name uuid).Within gameOutbound R :=
    fun uuid => course.bind (course.send_within ⟨nofun, nofun⟩) fun _ =>
      course.welcome_within name uuid
  split
  · exact course.bind (course.setCompression_within _) fun _ => rest _
  · exact rest _

theorem handle_within (m : Message) : m.handle.Within gameOutbound R := by
  cases m with
  | handshake m => exact course.handshake_within m
  | loginStart name => exact course.login_within name
  | _ => exact course.toStay.handle_within nofun nofun

end Hosted.Course

/-! ## The bytes of a client -/

/-- Every message of a client has the game's handler. -/
theorem handler_game {state : ProtocolState} {opcode : Int32} {entry : Registry.Entry Handler}
    (found : (Protocols.game.inbound.get state).byOpcode? opcode = some entry) :
    entry.handler = some Message.handle := by
  obtain ⟨row, -, -, rfl⟩ := row_of_gameInbound found
  rfl

namespace Hosted.Course

variable (course : Hosted.Course R)

include course

theorem payload_within (state : ProtocolState) (payload : Bytes) :
    (handlePayload (Protocols.game.inbound.get state) payload).Within gameOutbound R := by
  refine course.get_bind fun h => ?_
  dsimp only
  split
  · refine course.bind (course.pure_within _) fun _ => ?_
    split
    · exact course.refuse_within _
    · rename_i entry found
      rw [handler_game found]
      split
      · exact course.refuse_within _
      · exact course.handle_within _
  · exact Within.refuse_bind course.refl _ _

variable (fail : ∀ h e, R h (h.fail Protocols.game e))

include fail

/-- A buffer does what handlers do, and ends the session if it cannot be read. -/
theorem consume_within (h : Hosted) (buffer : Bytes) :
    R h (consume Protocols.game h buffer).2.1 :=
  Hosted.consume_within course.refl course.trans
    (fun payload h => course.payload_within h.session.state payload h) fail h buffer

theorem receive_within (server : Server) (c : Connection) (bytes : Bytes) :
    R ⟨c.session, server⟩
      ⟨(c.receive Protocols.game server bytes).2.1.session,
        (c.receive Protocols.game server bytes).2.2⟩ :=
  course.consume_within fail ⟨c.session, server⟩ (c.inbound ++ bytes)

end Hosted.Course

end VoxelServer
