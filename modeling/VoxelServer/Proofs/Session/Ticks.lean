import VoxelServer.Proofs.Session.Lull

/-!
# Ticks

A tick does one of three things, and which one depends on when the last keep-alive was sent and
when the last answer came:

* `Session.Ticked`: what a tick makes of a session;
* `Session.ticked_tick`: every tick is of this kind, and a keep-alive is really sent;
* `Config.patience_eq`: how long a client may be silent, for settings whose sum is a word;
* `Liveness.Timely`: a client that has answered all keep-alives in time, and is not overdue.
-/

namespace VoxelServer

/-- The bytes of a keep-alive behind its length. -/
def keepAlivePayload (id : Int32) : Bytes := Wire.encode (VarInt.mk 0x1F) ++ Message.varInt id

/-- Players can always be sent a keep-alive. -/
theorem encode_keepAlive (ctx : CodecContext) (id : Int32) :
    (gameOutbound.get .play).encode ctx (.keepAlive id) = .ok [keepAlivePayload id] := by
  have bound : (0x1F, .keepAlive) ∈ ProtocolState.play.outboundTable := by decide
  have alone : ∀ p ∈ ProtocolState.play.processors, p.type ≠ .keepAlive := by decide
  exact encode_of_body alone ctx bound rfl rfl

/-- Nobody else can. -/
theorem keepAlive_of_encode {state : ProtocolState} {ctx : CodecContext} {id : Int32}
    {payloads : List Bytes}
    (encoded : (gameOutbound.get state).encode ctx (.keepAlive id) = .ok payloads) :
    payloads = [keepAlivePayload id] := by
  have alone : ∀ p ∈ state.processors, p.type ≠ .keepAlive := by cases state <;> decide
  have known : ∃ row ∈ state.outboundTable, row.2 = .keepAlive := row_of_encode alone ctx encoded
  obtain rfl : state = .play := by
    cases state with
    | play => rfl
    | handshake | status | login => exact absurd known (by decide)
  rw [encode_keepAlive] at encoded
  exact (Except.ok.inj encoded).symm

/-- The frame of a keep-alive tells which one it is. -/
theorem eq_of_encode_keepAlive {framing : Framing} {id id' : Int32}
    (undoes : FrameCodec.Undoes framing.deflate)
    (same : framing.encode (keepAlivePayload id) = framing.encode (keepAlivePayload id')) :
    id = id' := by
  have fits (id : Int32) : FrameCodec.Fits 10 (keepAlivePayload id) := by
    have length : (keepAlivePayload id).length ≤ 5 + 5 := by
      rw [keepAlivePayload, List.length_append]
      exact Nat.add_le_add (length_varInt_le _) (length_varInt_le _)
    exact ⟨by omega, length⟩
  have payloads := Framing.eq_of_encode_eq undoes (fits id) (fits id') same
  have numbers : Wire.encode (VarInt.mk id) = Wire.encode (VarInt.mk id') :=
    List.append_cancel_left payloads
  have read (id : Int32) := decode_varInt ⟨id⟩ []
  simp only [List.append_nil] at read
  have values := (read id).symm.trans ((congrArg _ numbers).trans (read id'))
  simpa using values

theorem Liveness.isOverdue_iff {l : Liveness} {config : Config} {now : Nat} :
    l.isOverdue config now = true ↔ l.lastAnswer + config.patience < now := by
  rw [isOverdue, decide_eq_true_eq]
  omega

namespace Session

/-- What a tick makes of a session. -/
inductive Ticked (config : Config) (now : Nat) (s : Session) : Session → Prop
  | idle (quiet : s.state = .play → s.closing = false → ∀ live ∈ s.liveness?,
      live.isOverdue config now = false ∧ live.isDue config now = false) :
      Ticked config now s { s with now }
  | timedOut {live : Liveness} (playing : s.state = .play) (isOpen : s.closing = false)
      (player : s.liveness? = some live) (overdue : live.isOverdue config now = true) :
      Ticked config now s ({ s with now }.disconnect gameOutbound "Timed out")
  /-- The frames are those of a keep-alive. -/
  | pinged {live : Liveness} {t u : Session} (playing : s.state = .play)
      (isOpen : s.closing = false) (player : s.liveness? = some live)
      (early : live.isOverdue config now = false) (due : live.isDue config now = true)
      (clock : t.now = now) (state : t.state = s.state) (still : t.closing = false)
      (asked : t.liveness? = some (live.sent (Int32.ofNat now) now))
      (sent : s.send gameOutbound (.keepAlive (Int32.ofNat now)) = .ok u)
      (queued : t.outbound = u.outbound) : Ticked config now s t

theorem tick_of_away {s : Session} (away : (s.state != .play || s.closing) = true)
    (config : Config) (now : Nat) : (s.tick gameOutbound config now).2 = { s with now } := by
  simp only [tick, away, if_true]

theorem tick_of_nobody {s : Session} (nobody : s.player = none) (config : Config) (now : Nat) :
    (s.tick gameOutbound config now).2 = { s with now } := by
  simp only [tick, nobody]
  split <;> rfl

/-- A tick looks at the player of a session that is open. -/
theorem tick_of_player {s : Session} {player : Player} (playing : s.state = .play)
    (isOpen : s.closing = false) (here : s.player = some player) (config : Config) (now : Nat) :
    (s.tick gameOutbound config now).2 =
      if player.liveness.isOverdue config now then
        { s with now }.disconnect gameOutbound "Timed out"
      else if player.liveness.isDue config now then
        { s with
          now
          player := some { player with
            liveness := player.liveness.sent (Int32.ofNat now) now } }.queue
          [keepAlivePayload (Int32.ofNat now)]
      else { s with now } := by
  have active : (s.state != .play || s.closing) = false := by simp [playing, isOpen]
  simp only [tick, active, here, Bool.false_eq_true, if_false]
  split
  · rfl
  split
  · simp only [send, playing, encode_keepAlive]
    rfl
  · rfl

theorem ticked_tick (s : Session) (config : Config) (now : Nat) :
    s.Ticked config now (s.tick gameOutbound config now).2 := by
  by_cases away : (s.state != .play || s.closing) = true
  · rw [tick_of_away away]
    refine .idle fun playing isOpen => ?_
    simp [playing, isOpen] at away
  obtain ⟨playing, isOpen⟩ : s.state = .play ∧ s.closing = false := by simpa using away
  cases here : s.player with
  | none =>
    rw [tick_of_nobody here]
    refine .idle fun _ _ live mem => ?_
    simp [liveness?, here] at mem
  | some player =>
    have known : s.liveness? = some player.liveness := by rw [liveness?, here, Option.map_some]
    rw [tick_of_player playing isOpen here]
    split
    · rename_i overdue
      exact .timedOut playing isOpen known overdue
    rename_i early
    split
    · rename_i due
      have sent : s.send gameOutbound (.keepAlive (Int32.ofNat now)) =
          .ok (s.queue [keepAlivePayload (Int32.ofNat now)]) := by
        rw [send, playing, encode_keepAlive]
        rfl
      exact .pinged playing isOpen known (by simpa using early) due rfl rfl isOpen rfl sent rfl
    · rename_i waiting
      refine .idle fun _ _ live mem => ?_
      obtain rfl := Option.some.inj (known.symm.trans mem)
      exact ⟨by simpa using early, by simpa using waiting⟩

namespace Ticked

variable {config : Config} {now : Nat} {s t : Session}

theorem clock (h : Ticked config now s t) : t.now = now := by
  cases h with
  | idle => rfl
  | timedOut => exact (lull_disconnect "Timed out").now
  | pinged _ _ _ _ _ clock => exact clock

theorem seated (h : Ticked config now s t) (seated : s.Seated) : t.Seated := by
  cases h with
  | idle => exact seated
  | timedOut => exact (lull_disconnect "Timed out").seated seated
  | pinged playing _ _ _ _ _ state => exact fun _ => state.trans playing

/-- Whoever is still there after a tick was not overdue, and waits or was sent a keep-alive. -/
theorem of_open (h : Ticked config now s t) (seated : s.Seated) (isOpen : t.closing = false) :
    s.closing = false ∧ ∀ live ∈ t.liveness?, ∃ old ∈ s.liveness?,
      old.isOverdue config now = false ∧
      ((live = old ∧ old.isDue config now = false) ∨
        (live = old.sent (Int32.ofNat now) now ∧ old.isDue config now = true ∧
          ∃ u, s.send gameOutbound (.keepAlive (Int32.ofNat now)) = .ok u ∧
            t.outbound = u.outbound)) := by
  cases h with
  | idle quiet =>
    refine ⟨isOpen, fun live mem => ⟨live, mem, ?_⟩⟩
    have player : s.liveness? = some live := mem
    have waits := quiet (seated (by simp [player])) isOpen live mem
    exact ⟨waits.1, .inl ⟨rfl, waits.2⟩⟩
  | timedOut =>
    rw [closing_disconnect] at isOpen
    cases isOpen
  | pinged _ wasOpen player early due _ _ _ asked sent queued =>
    refine ⟨wasOpen, fun live mem => ?_⟩
    obtain rfl := Option.some.inj (asked.symm.trans mem)
    exact ⟨_, player, early, .inr ⟨rfl, due, _, sent, queued⟩⟩

/-- A tick that closes a session found its player overdue. -/
theorem overdue_of_closing (h : Ticked config now s t) (isOpen : s.closing = false)
    (closed : t.closing = true) : ∃ live ∈ s.liveness?, live.isOverdue config now = true := by
  cases h with
  | idle => exact absurd (isOpen.symm.trans closed) (by simp)
  | timedOut _ _ player overdue => exact ⟨_, player, overdue⟩
  | pinged _ _ _ _ _ _ _ still => exact absurd (still.symm.trans closed) (by simp)

theorem eq_disconnect (h : Ticked config now s t) (seated : s.Seated) (isOpen : s.closing = false)
    {live : Liveness} (player : live ∈ s.liveness?) (overdue : live.isOverdue config now = true) :
    t = { s with now }.disconnect gameOutbound "Timed out" := by
  have here : s.liveness? = some live := player
  cases h with
  | idle quiet =>
    have waits := quiet (seated (by simp [here])) isOpen live player
    exact absurd (waits.1.symm.trans overdue) (by simp)
  | timedOut => rfl
  | pinged _ _ known early =>
    obtain rfl := Option.some.inj (known.symm.trans here)
    exact absurd (early.symm.trans overdue) (by simp)

end Ticked

end Session

/-! ## Clients that answer in time -/

/-- Settings whose sum is a word. -/
theorem Config.patience_eq {config : Config}
    (fits : config.keepAliveInterval + config.keepAliveTimeout < UInt64.size) :
    config.patience = config.keepAliveInterval + config.keepAliveTimeout :=
  Nat.mod_eq_of_lt fits

namespace Liveness

/-- A client that has answered every keep-alive in time. One that waits for its keep-alive gets it
an interval after its last answer at the latest, and then has the timeout to answer it. -/
def Timely (config : Config) (now : Nat) (l : Liveness) : Prop :=
  match l.pending with
  | none => l.lastSent ≤ l.lastAnswer ∧
      (now < l.lastSent + config.keepAliveInterval ∨ now ≤ l.lastAnswer)
  | some _ => l.lastSent ≤ now ∧ l.lastSent ≤ l.lastAnswer + config.keepAliveInterval ∧
      now ≤ l.lastSent + config.keepAliveTimeout

/-- A client whose keep-alive was sent by the clock, while its last answer is from before the clock
was seen. -/
structure Stale (now : Nat) (l : Liveness) : Prop where
  unanswered : l.lastAnswer = 0
  asked : l.pending ≠ none
  sent : l.lastSent ≤ now

variable {config : Config} {now : Nat} {l : Liveness}

theorem timely_none (free : l.pending = none) :
    Timely config now l ↔ l.lastSent ≤ l.lastAnswer ∧
      (now < l.lastSent + config.keepAliveInterval ∨ now ≤ l.lastAnswer) := by
  rw [Timely, free]

theorem timely_some {id : Int32} (asked : l.pending = some id) :
    Timely config now l ↔ l.lastSent ≤ now ∧
      l.lastSent ≤ l.lastAnswer + config.keepAliveInterval ∧
      now ≤ l.lastSent + config.keepAliveTimeout := by
  rw [Timely, asked]

theorem timely_start (config : Config) (now : Nat) : Timely config now (.start now) :=
  ⟨Nat.le_refl _, .inr (Nat.le_refl _)⟩

/-- Whoever answers a keep-alive that was sent is in time from then on. -/
theorem timely_of_answer {id : Int32} (asked : l.pending = some id) (sent : l.lastSent ≤ now) :
    Timely config now (l.answered id now) := by
  rw [answered, if_pos asked]
  exact ⟨sent, .inr (Nat.le_refl _)⟩

theorem Timely.answered (h : Timely config now l) (id : Int32) :
    Timely config now (l.answered id now) := by
  by_cases asked : l.pending = some id
  · exact timely_of_answer asked ((timely_some asked).mp h).1
  · rwa [Liveness.answered, if_neg asked]

theorem Stale.answered (h : Stale now l) (id : Int32) :
    Timely config now (l.answered id now) ∨ Stale now (l.answered id now) := by
  by_cases asked : l.pending = some id
  · exact .inl (timely_of_answer asked h.sent)
  · rw [Liveness.answered, if_neg asked]
    exact .inr h

/-- Who answers in time is not overdue at the next tick, unless this tick is the one by which an
answer was due. -/
theorem Timely.not_overdue (h : Timely config now l) (interval : 1 ≤ config.keepAliveInterval)
    (fits : config.keepAliveInterval + config.keepAliveTimeout < UInt64.size)
    (inTime : l.pending ≠ none → now < l.lastSent + config.keepAliveTimeout) :
    l.isOverdue config (now + 1) = false := by
  simp only [isOverdue, decide_eq_false_iff_not, Config.patience_eq fits]
  cases asked : l.pending with
  | none =>
    have := (timely_none asked).mp h
    omega
  | some id =>
    have := (timely_some asked).mp h
    have := inTime (by simp [asked])
    omega

theorem Timely.idle (h : Timely config now l)
    (inTime : l.pending ≠ none → now < l.lastSent + config.keepAliveTimeout)
    (waiting : l.isDue config (now + 1) = false) : Timely config (now + 1) l := by
  cases asked : l.pending with
  | none =>
    rw [timely_none asked] at h ⊢
    simp [isDue, asked] at waiting
    omega
  | some id =>
    rw [timely_some asked] at h ⊢
    have := inTime (by simp [asked])
    omega

theorem Timely.sent (h : Timely config now l) (interval : 1 ≤ config.keepAliveInterval)
    (due : l.isDue config (now + 1) = true) (id : Int32) :
    Timely config (now + 1) (l.sent id (now + 1)) := by
  simp only [isDue, Bool.and_eq_true, Option.isNone_iff_eq_none] at due
  have := (timely_none due.2).mp h
  refine ⟨Nat.le_refl _, ?_, Nat.le_add_right _ _⟩
  show now + 1 ≤ l.lastAnswer + config.keepAliveInterval
  omega

end Liveness

end VoxelServer
