import Mathlib.Logic.Relation
import VoxelServer.Proofs.Session.Admission

/-!
# The way in

A session that is driven by its client and the clock gets to play along one way only, and one that
is turned away leaves no trace:

* `ProtocolState.Moves`: the moves there are;
* `Hosted.Stage`: how far a session has come, with all it has framed and posted on the way;
* `Hosted.Follows`: what bytes and ticks make of a stage;
* `Hosted.turnedAway_of_consume`: what is left behind by bytes that end a session before it plays;
* `login_is_all_or_nothing`: who plays was admitted and greeted, and who was not is only told why.
-/

namespace VoxelServer

/-! ## Moves -/

/-- The moves of a session from state to state. -/
inductive ProtocolState.Moves : ProtocolState → ProtocolState → Prop
  | status : Moves .handshake .status
  | login : Moves .handshake .login
  | play : Moves .login .play

open ProtocolState (Moves)
open Relation (ReflTransGen)

namespace Hosted

variable {h h' : Hosted} {result : Except Disconnection Unit} {e : Disconnection}

theorem Dispatched.moves (done : h.Dispatched result h') :
    h'.session.state = h.session.state ∨ Moves h.session.state h'.session.state := by
  cases done with
  | refused => exact .inl rfl
  | opened new asked =>
    rw [new]
    obtain rfl | rfl := asked
    · exact .inr .status
    · exact .inr .login
  | admitted waiting _ _ _ _ admits =>
    rw [waiting, admits.state]
    exact .inr .play
  | stayed _ stays => exact .inl stays.state

theorem moves_consume (h : Hosted) (buffer : Bytes) :
    ReflTransGen Moves h.session.state (consume Protocols.game h buffer).2.1.session.state := by
  refine consume_within (R := fun h h' => ReflTransGen Moves h.session.state h'.session.state)
    (fun _ => .refl) .trans (fun payload h => ?_) (fun h e => ?_) h buffer
  · obtain same | move := (h.dispatched payload).moves
    · rw [same]
    · exact .single move
  · rw [(Stays.fail h e).state]

/-- Nothing can be told to a client that has not opened the session. -/
theorem fail_of_new (new : h.session.state = .handshake) (e : Disconnection) :
    h.fail Protocols.game e = { h with session := h.session.close } :=
  congrArg (fun session => { h with session }) (Session.disconnect_untold (.inl new) e.reason)

/-! ## Stages -/

/-- How far a session has come, with the payloads it has framed and the joins it has posted. -/
inductive Stage (h : Hosted) : List Bytes → List Event → Prop
  | new (state : h.session.state = .handshake) (free : h.session.player = none) : Stage h [] []
  | status (state : h.session.state = .status) (free : h.session.player = none)
      (payloads : List Bytes) : Stage h payloads []
  /-- The client may log in. -/
  | waiting (state : h.session.state = .login) (free : h.session.player = none)
      (version : h.session.ctx.protocolVersion = spokenVersion) : Stage h [] []
  | turnedAway (state : h.session.state = .login) (free : h.session.player = none)
      (closing : h.session.closing = true) (payloads : List Bytes) : Stage h payloads []
  | inPlay {name : String} {number : Int32} {greeting : List Bytes}
      (state : h.session.state = .play)
      (version : h.session.ctx.protocolVersion = spokenVersion)
      (seated : h.session.player.map (·.identity) = some (name, .ofOfflineName name, number))
      (fine : isPlayerName name = true) (short : name.length ≤ maxNameLength)
      (greeted : payloadsOf h.session.ctx
        ((Player.new name (.ofOfflineName name) number 0).greeting h.server.config) = .ok greeting)
      (rest : List Bytes) (past : List Event) :
      Stage h (greeting ++ rest)
        [.join (h.server.listeners.join past ⟨name, .ofOfflineName name, number⟩)]

/-- One stage follows another, with what is framed and posted in between. -/
structure Follows (h h' : Hosted) : Prop where
  config : h'.server.config = h.server.config
  listeners : h'.server.listeners = h.server.listeners
  stage : ∃ more posted, h.session.Sends more h'.session ∧
    h'.server.events = h.server.events ++ posted ∧
    ∀ payloads joins, h.Stage payloads joins →
      h'.Stage (payloads ++ more) (joins ++ posted.filter (·.isJoin))

namespace Follows

theorem trans {a b c : Hosted} (first : a.Follows b) (second : b.Follows c) : a.Follows c := by
  obtain ⟨more, posted, sends, events, stage⟩ := first.stage
  obtain ⟨more', posted', sends', events', stage'⟩ := second.stage
  refine ⟨second.config.trans first.config, second.listeners.trans first.listeners,
    more ++ more', posted ++ posted', sends.trans sends', ?_, fun payloads joins staged => ?_⟩
  · rw [events', events, List.append_assoc]
  · rw [List.filter_append, ← List.append_assoc, ← List.append_assoc]
    exact stage' _ _ (stage _ _ staged)

end Follows

variable {payloads : List Bytes} {joins : List Event}

theorem Stays.free (stays : h.Stays h') (free : h.session.player = none) :
    h'.session.player = none := by
  simpa [free] using stays.player

/-- Nothing but the state, the context, the player and the settings tells the stage. -/
theorem Stage.congr (staged : h.Stage payloads joins) (state : h'.session.state = h.session.state)
    (ctx : h'.session.ctx = h.session.ctx) (player : h'.session.player = h.session.player)
    (closing : h'.session.closing = h.session.closing)
    (config : h'.server.config = h.server.config)
    (listeners : h'.server.listeners = h.server.listeners) : h'.Stage payloads joins := by
  cases staged with
  | new at_ free => exact .new (state.trans at_) (player.trans free)
  | status at_ free payloads => exact .status (state.trans at_) (player.trans free) payloads
  | waiting at_ free version =>
    exact .waiting (state.trans at_) (player.trans free) (ctx ▸ version)
  | turnedAway at_ free closed payloads =>
    exact .turnedAway (state.trans at_) (player.trans free) (closing.trans closed) payloads
  | inPlay at_ version seated fine short greeted rest past =>
    rw [← listeners]
    exact .inPlay (state.trans at_) (ctx ▸ version) (player ▸ seated) fine short
      (by rw [ctx, config]; exact greeted) rest past

/-- Whatever a session frames where it tells the status, or plays, comes behind its greeting. -/
theorem Stage.stays (staged : h.Stage payloads joins) (stays : h.Stays h')
    (settled : h.session.state = .status ∨ h.session.state = .play) (more : List Bytes) :
    h'.Stage (payloads ++ more) joins := by
  cases staged with
  | new at_ | waiting at_ | turnedAway at_ => simp [at_] at settled
  | status at_ free => exact .status (stays.state.trans at_) (stays.free free) _
  | inPlay at_ version seated fine short greeted rest past =>
    rw [List.append_assoc, ← stays.server.listeners]
    exact .inPlay (stays.state.trans at_) (stays.ctx ▸ version) (stays.player.trans seated) fine
      short (by rw [stays.ctx, stays.server.config]; exact greeted) (rest ++ more) past

namespace Follows

theorem of_stays (stays : h.Stays h')
    (settled : h.session.state = .status ∨ h.session.state = .play) : h.Follows h' := by
  obtain ⟨more, sends⟩ := stays.sends
  obtain ⟨heard, events, others⟩ := stays.server.events
  refine ⟨stays.server.config, stays.server.listeners, more, heard, sends, events,
    fun payloads joins staged => ?_⟩
  have none : heard.filter (·.isJoin) = [] :=
    List.filter_eq_nil_iff.mpr fun e mem => by simp [others e mem]
  rw [none, List.append_nil]
  exact staged.stays stays settled more

/-- Only the session changes, and nothing is framed. -/
theorem of_stage {s : Session} (outbound : s.outbound = h.session.outbound)
    (frames : s.frames = h.session.frames)
    (stage : ∀ payloads joins, h.Stage payloads joins →
      Stage { h with session := s } payloads joins) : h.Follows { h with session := s } := by
  refine ⟨rfl, rfl, [], [], .idle outbound frames, (List.append_nil _).symm,
    fun payloads joins staged => ?_⟩
  rw [List.filter_nil, List.append_nil, List.append_nil]
  exact stage payloads joins staged

theorem refl (h : Hosted) : h.Follows h := of_stage rfl rfl fun _ _ staged => staged

/-- A client that fails is told why, unless it has not opened the session yet. -/
theorem fail (h : Hosted) (e : Disconnection) : h.Follows (h.fail Protocols.game e) := by
  have stays := Stays.fail h e
  cases state : h.session.state with
  | status => exact of_stays stays (.inl state)
  | play => exact of_stays stays (.inr state)
  | handshake =>
    rw [fail_of_new state]
    refine of_stage rfl rfl fun payloads joins staged => ?_
    cases staged with
    | new _ free => exact .new state free
    | status at_ | waiting at_ | turnedAway at_ | inPlay at_ => cases state.symm.trans at_
  | login =>
    obtain ⟨more, sends⟩ := stays.sends
    refine ⟨rfl, rfl, more, [], sends, (List.append_nil _).symm, fun payloads joins staged => ?_⟩
    have closing : (h.fail Protocols.game e).session.closing = true := closing_fail h e
    have same := stays.state.trans state
    rw [List.filter_nil, List.append_nil]
    cases staged with
    | waiting _ free _ => exact .turnedAway same (stays.free free) closing _
    | turnedAway _ free _ payloads => exact .turnedAway same (stays.free free) closing _
    | new at_ | status at_ | inPlay at_ => cases state.symm.trans at_

end Follows

theorem Dispatched.follows (isOpen : h.session.closing = false)
    (done : h.Dispatched (.ok ()) h') : h.Follows h' := by
  cases done with
  | stayed settled stays => exact .of_stays stays settled
  | @opened _ next ctx new asked version =>
    let moved : Hosted := { h with session := { h.session with state := next, ctx } }
    refine .of_stage rfl rfl fun payloads joins staged => ?_
    cases staged with
    | new _ free =>
      obtain rfl | rfl := asked
      · exact .status (h := moved) rfl free []
      · exact .waiting (h := moved) rfl free (version rfl rfl)
    | status at_ | waiting at_ | turnedAway at_ | inPlay at_ => cases new.symm.trans at_
  | @admitted name greeting _ waiting room fine short greeted admits =>
    refine ⟨admits.config, admits.listeners, greeting, _, admits.sends, admits.events,
      fun payloads joins staged => ?_⟩
    have seated : h'.session.player.map (·.identity) =
        some (name, .ofOfflineName name, h.server.nextEntityId) := by
      rw [admits.player]
      rfl
    cases staged with
    | waiting _ free version =>
      have stage := Stage.inPlay (h := h') admits.state (admits.ctx ▸ version) seated fine short
        (by rw [admits.ctx, admits.config]; exact greeted) [] h.server.events
      rw [List.append_nil, admits.listeners] at stage
      exact stage
    | turnedAway _ _ closing => cases isOpen.symm.trans closing
    | new at_ | status at_ | inPlay at_ => cases waiting.symm.trans at_

theorem Dispatched.follows_fail (done : h.Dispatched (.error e) h') :
    h.Follows (h'.fail Protocols.game e) := by
  cases done with
  | refused => exact .fail h e
  | stayed settled stays => exact .of_stays (stays.trans (.fail h' e)) settled
  | @opened _ next ctx new asked version =>
    -- a client of another version: the session is closed before it reads a login
    let moved : Hosted := { h with session := { h.session with state := next, ctx } }
    have stays := Stays.fail moved e
    obtain ⟨more, sends⟩ := stays.sends
    have silent : h.session.Sends [] moved.session := .idle rfl rfl
    refine ⟨rfl, rfl, [] ++ more, [], silent.trans sends, (List.append_nil _).symm,
      fun payloads joins staged => ?_⟩
    cases staged with
    | new _ free =>
      obtain rfl | rfl := asked
      · exact .status stays.state (stays.free free) _
      · exact .turnedAway stays.state (stays.free free) (closing_fail moved e) _
    | status at_ | waiting at_ | turnedAway at_ | inPlay at_ => cases new.symm.trans at_

theorem follows_consume (h : Hosted) (buffer : Bytes) :
    h.Follows (consume Protocols.game h buffer).2.1 := by
  refine consume_steps .refl .trans (fun {payload h h'} isOpen dispatched => ?_)
    (fun {payload h h' e} _ dispatched => ?_) (fun _ => .fail _ _) h buffer
  all_goals
    have done := h.dispatched payload
    rw [dispatched] at done
  · exact done.follows isOpen
  · exact done.follows_fail

theorem follows_tick (h : Hosted) (now : Nat) :
    h.Follows { h with session := (h.session.tick gameOutbound h.server.config now).2 } := by
  by_cases playing : h.session.state = .play
  · exact .of_stays (.tick h now) (.inr playing)
  · rw [Session.tick_of_away (by simp [playing])]
    exact .of_stage rfl rfl fun _ _ staged => staged.congr rfl rfl rfl rfl rfl rfl

/-! ## Who is turned away -/

/-- A session ends before it plays. Nothing has changed, and its client is told why if there is a
message for that. -/
structure TurnedAway (h : Hosted) (e : Disconnection) (h' : Hosted) : Prop where
  server : h'.server = h.server
  player : h'.session.player = h.session.player
  frames : h'.session.frames = h.session.frames
  closing : h'.session.closing = true
  told : ∃ goodbye, h'.session.outbound =
      h.session.outbound ++ goodbye.map h.session.frames.encode ∧
    (h'.session.state = .login →
      (gameOutbound.get .login).encode h'.session.ctx (.disconnectText e.reason) = .ok goodbye) ∧
    (h'.session.state = .handshake → goodbye = [])

theorem turnedAway_fail (early : h.session.state = .handshake ∨ h.session.state = .login)
    (e : Disconnection) : h.TurnedAway e (h.fail Protocols.game e) := by
  obtain state | state := early
  · rw [fail_of_new state]
    refine ⟨rfl, rfl, rfl, rfl, [], (List.append_nil _).symm, fun login => ?_, fun _ => rfl⟩
    cases state.symm.trans login
  · obtain ⟨goodbye, encoded, told⟩ := Session.disconnect_told (.inl state) e.reason
    rw [state] at encoded
    have closed : h.fail Protocols.game e =
        { h with session := (h.session.queue [goodbye]).close } :=
      congrArg (fun session => { h with session }) told
    rw [closed]
    refine ⟨rfl, rfl, rfl, rfl, [goodbye], rfl, fun _ => encoded, fun new => ?_⟩
    cases state.symm.trans new

/-- Opening the session changes nothing else. -/
theorem TurnedAway.of_opened {next : ProtocolState} {ctx : CodecContext} (h' : Hosted)
    (away : TurnedAway { h with session := { h.session with state := next, ctx } } e h') :
    h.TurnedAway e h' :=
  ⟨away.server, away.player, away.frames, away.closing, away.told⟩

/-- Bytes that end a session before it plays leave nothing behind. -/
theorem turnedAway_of_consume {buffer rest : Bytes}
    (failed : consume Protocols.game h buffer = (.error e, h', rest))
    (early : h'.session.state = .handshake ∨ h'.session.state = .login) : h.TurnedAway e h' := by
  -- along with this, the session was in the first states all the way
  suffices both : (h.session.state = .handshake ∨ h.session.state = .login) ∧ h.TurnedAway e h' from
    both.2
  refine of_consume_error (P := fun h =>
    (h.session.state = .handshake ∨ h.session.state = .login) ∧ h.TurnedAway e h') failed
    (fun {h} ends => ?_) (fun {payload h h₁} dispatched ends => ?_)
    fun {payload h h₁} dispatched later => ?_
  · subst ends
    have before := (Stays.fail h e).state ▸ early
    exact ⟨before, turnedAway_fail before e⟩
  · subst ends
    have done := h.dispatched payload
    rw [dispatched] at done
    have before := (Stays.fail h₁ e).state ▸ early
    cases done with
    | refused => exact ⟨before, turnedAway_fail before e⟩
    | opened new => exact ⟨.inl new, .of_opened _ (turnedAway_fail before e)⟩
    | stayed settled stays =>
      rw [stays.state] at before
      obtain state | state := settled <;> simp [state] at before
  · obtain ⟨before, away⟩ := later
    have done := h.dispatched payload
    rw [dispatched] at done
    cases done with
    | opened new => exact ⟨.inl new, .of_opened h' away⟩
    | admitted _ _ _ _ _ admits =>
      rw [admits.state] at before
      simp at before
    | stayed settled stays =>
      rw [stays.state] at before
      obtain state | state := settled <;> simp [state] at before

end Hosted

/-! ## Runs -/

/-- The client and the clock act, the network takes frames, and what other sessions do to the server
leaves its settings alone. -/
def Action.Driven (server : Server) : Action → Prop
  | receive _ | tick _ | poll | write _ | unpoll _ => True
  | meanwhile other => other.config = server.config ∧ other.listeners = server.listeners
  | _ => False

namespace Line

def hosted (l : Line) : Hosted := ⟨l.session, l.server⟩

/-- The events that an action of the session posts. -/
def postedBy (l : Line) : Action → List Event
  | .meanwhile _ => []
  | a => (l.step a).server.events.drop l.server.events.length

/-- The events that the session posts in a run. -/
def posted (l : Line) : List Action → List Event
  | [] => []
  | a :: actions => l.postedBy a ++ (l.step a).posted actions

/-- How far a run has brought a session, at a server with the settings of the first one. -/
structure Staged (server : Server) (payloads : List Bytes) (joins : List Event) (l : Line) :
    Prop where
  config : l.server.config = server.config
  listeners : l.server.listeners = server.listeners
  stage : l.hosted.Stage payloads joins

variable {l : Line} {server : Server} {payloads : List Bytes} {joins : List Event}

theorem staged_start (server : Server) (deflate : Bytes → Bytes) :
    (start server deflate).Staged server [] [] :=
  ⟨rfl, rfl, .new rfl rfl⟩

theorem Staged.follows (staged : l.Staged server payloads joins) (l' : Line)
    (follows : l.hosted.Follows l'.hosted) : ∃ more, l.session.Sends more l'.session ∧
      l'.Staged server (payloads ++ more)
        (joins ++ (l'.server.events.drop l.server.events.length).filter (·.isJoin)) := by
  obtain ⟨more, posted, sends, events, stage⟩ := follows.stage
  have events : l'.server.events = l.server.events ++ posted := events
  rw [events, List.drop_left]
  exact ⟨more, sends, follows.config.trans staged.config, follows.listeners.trans staged.listeners,
    stage payloads joins staged.stage⟩

/-- Frames on their way to the network tell nothing of the stage. -/
theorem Staged.quiet (staged : l.Staged server payloads joins) {l' : Line}
    (same : l'.server = l.server) (state : l'.session.state = l.session.state)
    (ctx : l'.session.ctx = l.session.ctx) (player : l'.session.player = l.session.player)
    (closing : l'.session.closing = l.session.closing) :
    l'.Staged server (payloads ++ [])
      (joins ++ (l'.server.events.drop l.server.events.length).filter (·.isJoin)) := by
  rw [same, List.drop_length, List.filter_nil, List.append_nil, List.append_nil]
  have config : l'.hosted.server.config = l.hosted.server.config := congrArg _ same
  have listeners : l'.hosted.server.listeners = l.hosted.server.listeners := congrArg _ same
  exact ⟨config.trans staged.config, listeners.trans staged.listeners,
    staged.stage.congr state ctx player closing config listeners⟩

/-- One action brings the session on, and frames payloads unless it is about frames. -/
theorem staged_step (staged : l.Staged server payloads joins) {a : Action}
    (driven : a.Driven server) :
    ∃ more, (l.step a).Staged server (payloads ++ more)
        (joins ++ (l.postedBy a).filter (·.isJoin)) ∧
      if a.isTransfer then more = [] else l.session.Sends more (l.step a).session := by
  cases a with
  | receive bytes =>
    obtain ⟨more, sends, next⟩ := staged.follows (l.step (.receive bytes))
      (Hosted.follows_consume l.hosted (l.connection.inbound ++ bytes))
    exact ⟨more, next, sends⟩
  | tick now =>
    obtain ⟨more, sends, next⟩ := staged.follows (l.step (.tick now))
      (Hosted.follows_tick l.hosted now)
    exact ⟨more, next, sends⟩
  | meanwhile other =>
    refine ⟨[], ⟨driven.1, driven.2, ?_⟩, .idle rfl rfl⟩
    rw [postedBy, List.filter_nil, List.append_nil, List.append_nil]
    exact staged.stage.congr rfl rfl rfl rfl (driven.1.trans staged.config.symm)
      (driven.2.trans staged.listeners.symm)
  | poll =>
    refine ⟨[], ?_, rfl⟩
    unfold postedBy step Session.poll
    cases l.session.outbound with
    | nil => exact staged.quiet rfl rfl rfl rfl rfl
    | cons frame outbound => exact staged.quiet rfl rfl rfl rfl rfl
  | write count => exact ⟨[], staged.quiet rfl rfl rfl rfl rfl, rfl⟩
  | unpoll rest => exact ⟨[], staged.quiet rfl rfl rfl rfl rfl, rfl⟩
  | _ => cases driven

/-- Where a run brings a session, with the payloads it frames on the way. -/
theorem staged_run (staged : l.Staged server payloads joins) {actions : List Action}
    (driven : ∀ a ∈ actions, a.Driven server) :
    ∃ more, l.Framed actions more ∧ (l.run actions).Staged server (payloads ++ more)
      (joins ++ (l.posted actions).filter (·.isJoin)) := by
  induction actions generalizing l payloads joins with
  | nil =>
    refine ⟨[], .nil l, ?_⟩
    rw [posted, List.filter_nil, List.append_nil, List.append_nil]
    exact staged
  | cons a actions ih =>
    obtain ⟨now, later⟩ := List.forall_mem_cons.mp driven
    obtain ⟨more, next, sends⟩ := staged_step staged now
    obtain ⟨others, framed, final⟩ := ih next later
    rw [List.append_assoc, List.append_assoc, ← List.filter_append] at final
    cases transfers : a.isTransfer with
    | true =>
      rw [if_pos transfers] at sends
      subst sends
      exact ⟨others, .transfer transfers framed, final⟩
    | false =>
      rw [transfers] at sends
      exact ⟨more ++ others, .sends transfers sends framed, final⟩

theorem moves_step (l : Line) {a : Action} (driven : a.Driven server) :
    ReflTransGen Moves l.session.state (l.step a).session.state := by
  cases a with
  | receive bytes => exact Hosted.moves_consume l.hosted (l.connection.inbound ++ bytes)
  | tick now =>
    have same : (l.step (.tick now)).session.state = l.session.state :=
      (Hosted.Stays.tick l.hosted now).state
    rw [same]
  | meanwhile | write | unpoll => exact .refl
  | poll =>
    unfold step Session.poll
    cases l.session.outbound with
    | nil => exact .refl
    | cons frame outbound => exact .refl
  | _ => cases driven

/-- The player of a session that was let in and greeted, in a run from the start on. -/
structure LoggedIn (server : Server) (deflate : Bytes → Bytes) (actions : List Action) (p : Player)
    (l : Line) : Prop where
  seated : l.session.player = some p
  version : l.session.ctx.protocolVersion = 210
  length : 1 ≤ p.name.length ∧ p.name.length ≤ 16
  letters : ∀ c ∈ p.name.toList, c.isAlphanum = true ∨ c = '_'
  uuid : p.uuid = .ofOfflineName p.name
  /-- With the number and the place that the player has from the start. -/
  greeted : ∃ greeting rest,
    payloadsOf l.session.ctx
        ((Player.new p.name p.uuid p.entityId 0).greeting server.config) = .ok greeting ∧
      (Player.new p.name p.uuid p.entityId 0).Greets server.config greeting ∧
      l.queued = ((Framing.ofMaxLength server.config.maxFrameLength deflate).frameAll
        (greeting ++ rest)).1
  joined : ∃ past, ((start server deflate).posted actions).filter (·.isJoin) =
    [.join (server.listeners.join past ⟨p.name, p.uuid, p.entityId⟩)]

end Line

theorem isPlayerName_iff (name : String) : isPlayerName name = true ↔
    1 ≤ name.length ∧ ∀ c ∈ name.toList, c.isAlphanum = true ∨ c = '_' := by
  have empty : name.isEmpty = false ↔ 1 ≤ name.length := by
    rw [Nat.one_le_iff_ne_zero, Ne, String.length_eq_zero_iff, ← String.isEmpty_iff,
      Bool.not_eq_true]
  simp [isPlayerName, empty]

/-- **Who plays was let in, and who was not is only told why.** However the bytes of a client and
the ticks of the clock drive a session: if it plays, its client speaks the right version, its player
has a proper name and the identity that belongs to it, the first payloads ever queued are the
greeting, and one join was posted. The session moves from state to state along three ways only.
Bytes that end it before it plays leave the server, the player and the framing as they were. A
login is refused in this way or it succeeds, and one of another version is refused. -/
theorem login_is_all_or_nothing (server : Server) (deflate : Bytes → Bytes)
    (actions : List Action) (driven : ∀ a ∈ actions, a.Driven server) :
    let l := (Line.start server deflate).run actions
    (l.session.state = .play → ∃ p, l.LoggedIn server deflate actions p) ∧
    (∀ a, a.Driven server → ReflTransGen Moves l.session.state (l.step a).session.state) ∧
    (∀ (h : Hosted) (payload : Bytes),
      let state := (h.dispatch Protocols.game payload).2.session.state
      state = h.session.state ∨ Moves h.session.state state) ∧
    (∀ bytes e c after,
      l.connection.receive Protocols.game l.server bytes = (.error e, c, after) →
      c.session.state = .handshake ∨ c.session.state = .login →
      Hosted.TurnedAway ⟨l.session, l.server⟩ e ⟨c.session, after⟩) ∧
    (∀ (h : Hosted) (payload : Bytes), h.session.state = .login →
      (∃ e, h.dispatch Protocols.game payload = (.error e, h)) ∨
        ∃ name h', h.message? Protocols.game payload = some (.loginStart name) ∧
          h.server.isFull = false ∧ isPlayerName name = true ∧ name.length ≤ 16 ∧
          h.dispatch Protocols.game payload = (.ok (), h') ∧ h'.session.state = .play) ∧
    (∀ (h : Hosted) (payload : Bytes) (m : Handshake),
      h.message? Protocols.game payload = some (.handshake m) → m.nextState = 2 →
      m.protocolVersion ≠ 210 → (h.dispatch Protocols.game payload).1 =
        .error (.kicked (versionReason m.protocolVersion))) := by
  intro l
  obtain ⟨payloads, framed, staged⟩ := Line.staged_run (Line.staged_start server deflate) driven
  refine ⟨fun playing => ?_, fun a driven => l.moves_step driven,
    fun h payload => (h.dispatched payload).moves, fun bytes e c after failed early => ?_,
    fun h payload waiting => ?_, fun h payload m read wants other =>
      Hosted.dispatch_outdated read wants other⟩
  · have queued := (Line.queued_of_framed framed).1
    have stage := staged.stage
    rw [List.nil_append, List.nil_append] at stage
    obtain ⟨joins, joined⟩ : ∃ joins,
        ((Line.start server deflate).posted actions).filter (·.isJoin) = joins := ⟨_, rfl⟩
    rw [joined] at stage
    cases stage with
    | new state | status state | waiting state | turnedAway state => cases playing.symm.trans state
    | @inPlay name number greeting _ version seated fine short greeted rest past =>
      obtain ⟨p, here, same⟩ := Option.map_eq_some_iff.mp seated
      obtain ⟨rfl, uuid, rfl⟩ : p.name = name ∧ p.uuid = .ofOfflineName name ∧
          p.entityId = number := by
        simpa [Player.identity] using same
      have letters := (isPlayerName_iff p.name).mp fine
      rw [← uuid] at greeted joined
      refine ⟨p, here, version, ⟨letters.1, short⟩, letters.2, uuid, ⟨greeting, rest, ?_, ?_, queued⟩,
        past, ?_⟩
      · rw [← staged.config]
        exact greeted
      · rw [← staged.config]
        exact Player.greets_of_payloadsOf greeted
      · rw [joined, ← staged.listeners]
        rfl
  · cases worked : Hosted.consume Protocols.game ⟨l.session, l.server⟩
        (l.connection.inbound ++ bytes) with
    | mk result left =>
      obtain ⟨h, rest⟩ := left
      have received : l.connection.receive Protocols.game l.server bytes =
          (result, ⟨h.session, rest⟩, h.server) := by
        rw [Connection.receive, show l.connection.session = l.session from rfl, worked]
      obtain ⟨rfl, rfl, rfl⟩ := by
        simpa only [Prod.mk.injEq] using received.symm.trans failed
      exact Hosted.turnedAway_of_consume worked early
  · obtain refused | ⟨name, read, room, fine, short, payloads, h', -, run, admits⟩ :=
      Hosted.dispatch_login waiting payload
    · exact .inl refused
    · exact .inr ⟨name, h', read, room, fine, short, run, admits.state⟩

/-- Steve logs in while others join, and his first frame is written. -/
theorem steve_is_let_in :
    let server := Server.start { compressionThreshold := 64 } .acceptAll
    let start := Line.start server Zlib.deflate
    let actions := [.tick 7, .meanwhile { server with online := 2, nextEntityId := 3 },
      Action.steveJoins, .poll, .write 3]
    ∃ p, (start.run actions).LoggedIn server Zlib.deflate actions p ∧ p.name = "Steve" ∧
      p.entityId = 3 := by
  intro server start actions
  have driven : ∀ a ∈ actions, a.Driven server := by
    simp [actions, Action.steveJoins, Action.Driven]
  have playing : (start.run actions).session.state = .play := by decide +kernel
  have who : (start.run actions).session.player.map
      (fun p => (p.name, p.entityId)) = some ("Steve", 3) := by decide +kernel
  obtain ⟨p, loggedIn⟩ := (login_is_all_or_nothing server Zlib.deflate actions driven).1 playing
  rw [loggedIn.seated, Option.map_some, Option.some.injEq, Prod.mk.injEq] at who
  exact ⟨p, loggedIn, who.1, who.2⟩

end VoxelServer
