import VoxelServer.Proofs.Session.Answering

/-!
# Clients that answer in time

A client that answers every keep-alive in time should stay connected. It does, unless its player
joined before the session saw the clock, and then by a clock that said 0, or unless the settings of
the server are too large to be added:

* `Line.Watched`: what every tick but the first one finds of such a client;
* `Line.watched_run`: this is kept from tick to tick;
* `punctual_timed_out_iff`: which tick of which run times such a client out.
-/

namespace VoxelServer

namespace Line

/-- A session that no tick has reached. Its clock says 0, and so it is when its player joins. -/
structure Unseen (config : Config) (l : Line) : Prop where
  settings : l.server.config = config
  clock : l.session.now = 0
  seated : l.session.Seated
  fresh : ∀ live ∈ l.session.liveness?, live = .start 0

/-- A session between two ticks of a run whose client answers in time. `late` says that its player
may have joined by the wrong clock. -/
structure Watched (config : Config) (late : Prop) (now : Nat) (l : Line) (actions : List Action) :
    Prop where
  settings : l.server.config = config
  clock : l.session.now = now
  seated : l.session.Seated
  inTime : l.session.closing = false → ∀ live ∈ l.session.liveness?,
    live.Timely config now ∨ (late ∧ live.Stale now)
  awaited : l.session.closing = false → ∀ live ∈ l.session.liveness?, ∀ id,
    live.pending = some id → l.Awaits (live.lastSent + config.keepAliveTimeout + 1) id actions

variable {config : Config} {late : Prop} {now : Nat} {l : Line} {a : Action}
  {actions : List Action}

/-! ## Before the first tick -/

theorem unseen_start (server : Server) (deflate : Bytes → Bytes) :
    (start server deflate).Unseen server.config where
  settings := rfl
  clock := rfl
  seated := fun player => absurd rfl player
  fresh := fun _ mem => by cases mem

theorem unseen_step (h : l.Unseen config) (other : a.isTick = false) (steady : a.Steady config) :
    (l.step a).Unseen config where
  settings := (config_step (h.settings ▸ steady)).trans h.settings
  clock := (lull_step l other).now.trans h.clock
  seated := (lull_step l other).seated h.seated
  fresh := by
    refine (lull_step l other).forall_liveness (congrArg _ h.clock) (fun live id same => ?_) h.fresh
    rw [same]
    rfl

theorem unseen_run (h : l.Unseen config) (still : ∀ a ∈ actions, a.isTick = false)
    (steady : ∀ a ∈ actions, a.Steady config) : (l.run actions).Unseen config := by
  induction actions generalizing l with
  | nil => exact h
  | cons a actions ih =>
    simp only [List.forall_mem_cons] at still steady
    exact ih (unseen_step h still.1 steady.1) still.2 steady.2

/-! ## From tick to tick -/

/-- Between two ticks an answer is in time, and whoever joins does so by the clock. -/
theorem watched_lull (h : l.Watched config late now (a :: actions)) (other : a.isTick = false)
    (steady : a.Steady config) : (l.step a).Watched config late now actions := by
  have lull := lull_step l other
  constructor
  · exact (config_step (h.settings ▸ steady)).trans h.settings
  · exact lull.now.trans h.clock
  · exact lull.seated h.seated
  · intro isOpen
    refine lull.forall_liveness ?_ (fun live id inTime => ?_) (h.inTime (lull.isOpen isOpen))
    · rw [h.clock]
      exact .inl (Liveness.timely_start config now)
    · rw [h.clock]
      obtain timely | ⟨joined, stale⟩ := inTime
      · exact .inl (timely.answered id)
      · exact (stale.answered id).imp_right fun stale => ⟨joined, stale⟩
  · intro isOpen live mem id asked
    have silent : ¬ l.Answers id a := fun answers => answered_step answers live mem asked
    refine lull.forall_liveness
      (P := fun live => live.pending = some id →
        (l.step a).Awaits (live.lastSent + config.keepAliveTimeout + 1) id actions)
      (fun none => by cases none) (fun old answer waits asked => ?_) (fun old player asked =>
        (h.awaited (lull.isOpen isOpen) old player id asked).tail silent) live mem asked
    have same := Liveness.answered_of_pending asked
    rw [same] at asked ⊢
    exact waits asked

/-- A tick that sends a keep-alive starts the time for its answer. -/
theorem awaits_of_pinged {timeout : Nat} {u : Session}
    (punctual : l.Punctual timeout (.tick now :: actions))
    (still : (l.step (.tick now)).session.closing = false)
    (sent : l.session.send gameOutbound (.keepAlive (Int32.ofNat now)) = .ok u)
    (queued : (l.step (.tick now)).session.outbound = u.outbound) {id : Int32}
    (asked : some (Int32.ofNat now) = some id) :
    (l.step (.tick now)).Awaits (now + timeout + 1) id actions := by
  cases asked
  exact punctual [] now actions _ rfl ⟨still, u, sent, queued⟩

/-- Whoever waits for an answer in time does not wait until the last tick for it. -/
theorem lt_of_awaits {live : Liveness} (timely : live.Timely config now)
    (awaited : ∀ id, live.pending = some id →
      l.Awaits (live.lastSent + config.keepAliveTimeout + 1) id (.tick (now + 1) :: actions))
    (waits : live.pending ≠ none) : now < live.lastSent + config.keepAliveTimeout := by
  obtain ⟨id, asked⟩ := Option.ne_none_iff_exists'.mp waits
  have bound := ((Liveness.timely_some asked).mp timely).2.2
  have differs := (awaited id asked).ne_tick
  omega

/-- A tick leaves a player alone or sends a keep-alive, and then awaits the answer to that. -/
theorem watched_of_tick (settings : l.server.config = config) (seated : l.session.Seated)
    (punctual : l.Punctual config.keepAliveTimeout (.tick (now + 1) :: actions))
    (idle : l.session.closing = false → ∀ live ∈ l.session.liveness?,
      live.isDue config (now + 1) = false →
        (live.Timely config (now + 1) ∨ (late ∧ live.Stale (now + 1))) ∧
        ∀ id, live.pending = some id → (l.step (.tick (now + 1))).Awaits
          (live.lastSent + config.keepAliveTimeout + 1) id actions)
    (pinged : l.session.closing = false → ∀ live ∈ l.session.liveness?,
      live.isDue config (now + 1) = true →
        (live.sent (Int32.ofNat (now + 1)) (now + 1)).Timely config (now + 1) ∨
          (late ∧ (live.sent (Int32.ofNat (now + 1)) (now + 1)).Stale (now + 1))) :
    (l.step (.tick (now + 1))).Watched config late (now + 1) actions := by
  have ticked := l.ticked_step (now + 1)
  rw [settings] at ticked
  constructor
  · exact (config_step (a := .tick (now + 1)) trivial).trans settings
  · exact ticked.clock
  · exact ticked.seated seated
  · intro isOpen live mem
    obtain ⟨wasOpen, players⟩ := ticked.of_open seated isOpen
    obtain ⟨old, player, -, ⟨rfl, waiting⟩ | ⟨rfl, due, -⟩⟩ := players live mem
    · exact (idle wasOpen live player waiting).1
    · exact pinged wasOpen old player due
  · intro isOpen live mem id asked
    obtain ⟨wasOpen, players⟩ := ticked.of_open seated isOpen
    obtain ⟨old, player, -, ⟨rfl, waiting⟩ | ⟨rfl, -, u, sent, queued⟩⟩ := players live mem
    · exact (idle wasOpen live player waiting).2 id asked
    · exact awaits_of_pinged punctual isOpen sent queued asked

/-- The first tick sends a keep-alive to whoever joined before, if it does not time them out. Only
if the clock had not passed the interval by then, this is a keep-alive like all others. -/
theorem watched_first (h : l.Unseen config) (interval : 1 ≤ config.keepAliveInterval)
    (punctual : l.Punctual config.keepAliveTimeout (.tick (now + 1) :: actions)) :
    (l.step (.tick (now + 1))).Watched config
      (l.session.player.isSome = true ∧ config.keepAliveInterval ≤ now) (now + 1) actions := by
  refine watched_of_tick h.settings h.seated punctual ?_ ?_
  · intro _ live player waiting
    obtain rfl := h.fresh live player
    have before : now + 1 < config.keepAliveInterval := by
      simpa [Liveness.isDue, Liveness.start] using waiting
    constructor
    · exact .inl ⟨Nat.le_refl _, .inl (by simpa [Liveness.start] using before)⟩
    · intro id asked
      cases asked
  · intro _ old player due
    by_cases passed : config.keepAliveInterval ≤ now
    · have joined : l.session.player.isSome = true := by
        obtain ⟨p, here, -⟩ := Option.map_eq_some_iff.mp player
        rw [here]
        rfl
      refine .inr ⟨⟨joined, passed⟩, ?_, Option.some_ne_none _, Nat.le_refl _⟩
      rw [h.fresh old player]
      rfl
    · have timely : old.Timely config now := by
        rw [h.fresh old player]
        exact ⟨Nat.le_refl _, .inl (by simpa [Liveness.start] using passed)⟩
      exact .inl (timely.sent interval due _)

theorem watched_tick (h : l.Watched config late now (.tick (now + 1) :: actions))
    (interval : 1 ≤ config.keepAliveInterval)
    (punctual : l.Punctual config.keepAliveTimeout (.tick (now + 1) :: actions)) :
    (l.step (.tick (now + 1))).Watched config late (now + 1) actions := by
  refine watched_of_tick h.settings h.seated punctual ?_ ?_
  · intro wasOpen live player waiting
    have awaited := h.awaited wasOpen live player
    constructor
    · obtain timely | ⟨joined, stale⟩ := h.inTime wasOpen live player
      · exact .inl (timely.idle (lt_of_awaits timely awaited) waiting)
      · exact .inr ⟨joined, stale.unanswered, stale.asked, Nat.le_succ_of_le stale.sent⟩
    · intro id asked
      exact (awaited id asked).tail fun answers => answers
  · intro wasOpen old player due
    obtain timely | ⟨-, stale⟩ := h.inTime wasOpen old player
    · exact .inl (timely.sent interval due _)
    · simp [Liveness.isDue, stale.asked] at due

/-- Every tick of a run finds what the one before has left. -/
theorem watched_run {early later : List Action} {next : Nat}
    (h : l.Watched config late now (early ++ .tick next :: later))
    (interval : 1 ≤ config.keepAliveInterval)
    (counts : Action.Counts now (early ++ .tick next :: later))
    (steady : ∀ a ∈ early, a.Steady config)
    (punctual : l.Punctual config.keepAliveTimeout (early ++ .tick next :: later)) :
    ∃ now, next = now + 1 ∧ (l.run early).Watched config late now (.tick next :: later) := by
  induction early generalizing l now with
  | nil => exact ⟨now, counts.1, h⟩
  | cons a early ih =>
    simp only [List.forall_mem_cons] at steady
    cases ticks : a.isTick with
    | false =>
      exact ih (watched_lull h ticks steady.1) (Action.counts_of_cons ticks counts) steady.2
        punctual.tail
    | true =>
      cases a with
      | tick n =>
        obtain ⟨rfl, counts⟩ := counts
        exact ih (watched_tick h interval punctual) counts steady.2 punctual.tail
      | _ => cases ticks

/-! ## Who is timed out -/

/-- The player was overdue. -/
theorem timesOut_iff (settings : l.server.config = config) (seated : l.session.Seated) :
    l.TimesOut now ↔ l.session.closing = false ∧
      ∃ live ∈ l.session.liveness?, live.isOverdue config now = true := by
  have ticked := l.ticked_step now
  rw [settings] at ticked
  constructor
  · intro ⟨isOpen, gone⟩
    refine ⟨isOpen, ticked.overdue_of_closing isOpen ?_⟩
    rw [gone]
    exact Session.closing_disconnect _ _ _
  · intro ⟨isOpen, live, player, overdue⟩
    exact ⟨isOpen, ticked.eq_disconnect seated isOpen player overdue⟩

/-- An overdue player has joined by the wrong clock, unless the settings do not add up. -/
theorem late_of_overdue (h : l.Watched config late now (.tick (now + 1) :: actions))
    (interval : 1 ≤ config.keepAliveInterval)
    (fits : config.keepAliveInterval + config.keepAliveTimeout < UInt64.size)
    (isOpen : l.session.closing = false)
    {live : Liveness} (player : live ∈ l.session.liveness?)
    (overdue : live.isOverdue config (now + 1) = true) : late ∧ live.lastAnswer = 0 := by
  obtain timely | ⟨joined, stale⟩ := h.inTime isOpen live player
  · have awaits := lt_of_awaits timely (h.awaited isOpen live player)
    have present := timely.not_overdue interval fits awaits
    exact absurd (present.symm.trans overdue) (by simp)
  · exact ⟨joined, stale.unanswered⟩

/-- The ticks of a run are its first one, and those behind it. -/
theorem split_at_tick {quiet later before after : List Action} {first now : Nat}
    (still : ∀ a ∈ quiet, a.isTick = false)
    (split : quiet ++ .tick first :: later = before ++ .tick now :: after) :
    (before = quiet ∧ now = first) ∨
      ∃ between, before = quiet ++ .tick first :: between ∧
        later = between ++ .tick now :: after := by
  obtain ⟨rest, rfl, same⟩ | ⟨rest, rfl, same⟩ := List.append_eq_append_iff.mp split
  · cases rest with
    | nil =>
      cases same
      exact .inl ⟨List.append_nil _, rfl⟩
    | cons a rest =>
      cases same
      exact .inr ⟨rest, rfl, rfl⟩
  · cases rest with
    | nil =>
      cases same
      exact .inl ⟨(List.append_nil _).symm, rfl⟩
    | cons a rest =>
      cases same
      exact absurd (still (.tick now) (by simp)) (by simp [Action.isTick])

end Line

/-- **A client that answers every keep-alive in time is timed out for one of two reasons only.** The
first is that its player joined before the first tick of the session, and so by a clock that said 0,
on a server that had counted an interval of ticks by then, and that no answer was credited yet. The
second is that the interval and the timeout are too large for their sum to be a word. Either way it
happens at the first tick at which it has been silent for longer than the server is patient. -/
theorem punctual_timed_out_iff (server : Server) (deflate : Bytes → Bytes) (age : Nat)
    (quiet later : List Action)
    (interval : 1 ≤ server.config.keepAliveInterval)
    (still : ∀ a ∈ quiet, a.isTick = false)
    (counts : Action.Counts (age + 1) later)
    (steady : ∀ a ∈ quiet ++ later, a.Steady server.config)
    (punctual : (Line.start server deflate).Punctual server.config.keepAliveTimeout
      (quiet ++ .tick (age + 1) :: later))
    (before after : List Action) (now : Nat)
    (split : quiet ++ .tick (age + 1) :: later = before ++ .tick now :: after) :
    let l := (Line.start server deflate).run before
    l.TimesOut now ↔
      l.session.closing = false ∧ ∃ player ∈ l.session.player,
        player.liveness.lastAnswer + server.config.patience < now ∧
        (UInt64.size ≤ server.config.keepAliveInterval + server.config.keepAliveTimeout ∨
          ((Line.start server deflate).run quiet).session.player.isSome = true ∧
          server.config.keepAliveInterval ≤ age ∧ player.liveness.lastAnswer = 0) := by
  intro l
  simp only [List.forall_mem_append] at steady
  have unseen := Line.unseen_run (Line.unseen_start server deflate) still steady.1
  -- If the settings add up, an overdue player has joined before the first tick.
  have found : l.server.config = server.config ∧ l.session.Seated ∧
      (server.config.keepAliveInterval + server.config.keepAliveTimeout < UInt64.size →
        l.session.closing = false → ∀ live ∈ l.session.liveness?,
        live.isOverdue server.config now = true →
          (((Line.start server deflate).run quiet).session.player.isSome = true ∧
            server.config.keepAliveInterval ≤ age) ∧ live.lastAnswer = 0) := by
    obtain ⟨rfl, rfl⟩ | ⟨between, rfl, rfl⟩ := Line.split_at_tick still split
    · refine ⟨unseen.settings, unseen.seated, fun fits _ live player overdue => ?_⟩
      have fresh := unseen.fresh live player
      subst fresh
      have passed : server.config.keepAliveInterval + server.config.keepAliveTimeout < age + 1 := by
        simpa [Liveness.isOverdue, Liveness.start, Config.patience_eq fits] using overdue
      obtain ⟨p, here, -⟩ := Option.map_eq_some_iff.mp player
      exact ⟨⟨by rw [here]; rfl, by omega⟩, rfl⟩
    · have first := Line.watched_first unseen interval punctual.drop
      obtain ⟨clock, rfl, watched⟩ := Line.watched_run first interval counts
        (fun a ha => steady.2 a (List.mem_append_left _ ha)) punctual.drop.tail
      have same : l =
          (((Line.start server deflate).run quiet).step (.tick (age + 1))).run between :=
        List.foldl_append
      rw [same]
      exact ⟨watched.settings, watched.seated, fun fits isOpen live player overdue =>
        Line.late_of_overdue watched interval fits isOpen player overdue⟩
  obtain ⟨settings, seated, joined⟩ := found
  rw [Line.timesOut_iff settings seated]
  constructor
  · rintro ⟨isOpen, live, player, overdue⟩
    obtain ⟨p, here, rfl⟩ := Option.map_eq_some_iff.mp player
    refine ⟨isOpen, p, here, Liveness.isOverdue_iff.mp overdue, ?_⟩
    obtain fits | overflow := Nat.lt_or_ge
      (server.config.keepAliveInterval + server.config.keepAliveTimeout) UInt64.size
    · obtain ⟨⟨early, passed⟩, unanswered⟩ := joined fits isOpen p.liveness player overdue
      exact .inr ⟨early, passed, unanswered⟩
    · exact .inl overflow
  · rintro ⟨isOpen, p, here, passed, -⟩
    exact ⟨isOpen, p.liveness, Option.map_eq_some_iff.mpr ⟨p, here, rfl⟩,
      Liveness.isOverdue_iff.mpr passed⟩

/-- Steve joins between two ticks, is sent a keep-alive, and answers it before the next tick. -/
theorem answering_player_stays :
    let server := Server.start
      { compressionThreshold := -1, keepAliveInterval := 1, keepAliveTimeout := 0 } .acceptAll
    let start := Line.start server Zlib.deflate
    let before := [.tick 1, Action.steveJoins, .tick 2, .receive [2, 11, 2]]
    start.Punctual 0 (before ++ [.tick 3]) ∧
      (start.run [.tick 1, Action.steveJoins]).Pings 2 2 ∧
      (start.run before).session.player.isSome = true ∧
      ¬ (start.run before).TimesOut 3 := by
  intro server start before
  let joined := start.run [.tick 1, Action.steveJoins]
  have playing : joined.session.state = .play := by decide +kernel
  have pings : joined.Pings 2 2 := by
    have sent : joined.session.send gameOutbound (.keepAlive 2) =
        .ok (joined.session.queue [keepAlivePayload 2]) := by
      rw [Session.send, playing, encode_keepAlive]
      rfl
    exact ⟨by decide +kernel, _, sent, by decide +kernel⟩
  have answers : (joined.step (.tick 2)).Answers 2 (.receive [2, 11, 2]) := by
    have isOpen : (joined.step (.tick 2)).session.closing = false := by decide +kernel
    have state : (joined.step (.tick 2)).session.state = .play := by decide +kernel
    have frame : (joined.step (.tick 2)).session.frames.decode
        ((joined.step (.tick 2)).connection.inbound ++ [2, 11, 2]) = .frame [11, 2] [] := by
      decide +kernel
    have bound : (11, MessageType.keepAlive) ∈ ProtocolState.play.inboundTable := by decide
    rw [← state] at bound
    refine .now isOpen frame ((Hosted.message?_row bound rfl).trans ?_)
    rfl
  have punctual : start.Punctual 0 (before ++ [.tick 3]) := by
    intro early now late id split asked between after found
    have undoes : FrameCodec.Undoes (start.run early).session.frames.deflate := by
      rw [Line.deflate_run]
      exact FrameCodec.undoes_deflate
    obtain ⟨rfl, -⟩ := Line.eq_of_pings undoes asked
    subst found
    have ticks := congrArg List.length split
    simp only [before, List.length_append, List.length_cons, List.length_nil] at ticks
    rcases early with _ | ⟨a, _ | ⟨b, _ | ⟨c, early⟩⟩⟩
    · obtain ⟨-, s, sent, -⟩ := asked
      obtain ⟨payloads, encoded, -⟩ := exists_of_map_ok sent
      have handshake : (start.run []).session.state = .handshake := rfl
      rw [handshake] at encoded
      have alone : ∀ p ∈ ProtocolState.handshake.processors, p.type ≠ .keepAlive := by decide
      obtain ⟨row, bound, -⟩ := row_of_encode alone _ encoded
      cases bound
    · cases split
    · obtain ⟨rfl, rfl, rfl, rest⟩ : Action.tick 1 = a ∧ Action.steveJoins = b ∧ 2 = now ∧
          [.receive [2, 11, 2], .tick 3] = between ++ .tick (now + 1) :: after := by
        simpa [before] using split
      obtain _ | ⟨answer, between⟩ := between
      · cases rest
      · obtain rfl := (List.cons.inj rest).1
        exact .inl answers
    · have rest := (List.cons.inj (List.cons.inj (List.cons.inj split).2).2).2
      obtain _ | ⟨d, early⟩ := early
      · cases rest
      · simp only [List.length_cons] at ticks
        omega
  refine ⟨punctual, pings, by decide +kernel, fun out => ?_⟩
  have alone := (punctual_timed_out_iff server Zlib.deflate 0 []
    [Action.steveJoins, .tick 2, .receive [2, 11, 2], .tick 3] (Nat.le_refl 1) (by simp)
    ⟨rfl, rfl, trivial⟩ (by simp [Action.steveJoins, Action.Steady]) punctual before [] 3 rfl).mp out
  obtain ⟨-, -, -, -, overflow | ⟨early, -⟩⟩ := alone
  · exact absurd overflow (by decide)
  · cases early

/-- Steve joins a server of age 1000 before the first tick of his session. He is not sent any
keep-alive, and the first tick disconnects him for being silent. -/
theorem late_player_times_out :
    let server := Server.start { compressionThreshold := -1 } .acceptAll
    let start := Line.start server Zlib.deflate
    start.Punctual server.config.keepAliveTimeout [.steveJoins, .tick 1001] ∧
      (start.run [.steveJoins]).TimesOut 1001 := by
  intro server start
  constructor
  · intro early now late id split pings between after found
    have ticks := congrArg (List.countP Action.isTick) split
    rw [found] at ticks
    simp only [List.countP_append, List.countP_cons, List.countP_nil, Action.steveJoins,
      Action.isTick] at ticks
    simp at ticks
    omega
  · have settings : (start.run [.steveJoins]).server.config = server.config := by
      decide +kernel
    have playing : (start.run [.steveJoins]).session.state = .play := by
      decide +kernel
    have here : (start.run [.steveJoins]).session.liveness? = some (.start 0) := by
      decide +kernel
    rw [Line.timesOut_iff settings fun _ => playing]
    exact ⟨by decide +kernel, _, here, by decide +kernel⟩

end VoxelServer
