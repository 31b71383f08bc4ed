import VoxelServer.Proofs.Session.Handling

/-!
# Between two ticks

Only ticks move a session's clock and send keep-alives. Whatever else happens can make a player
join, answer a keep-alive, or end the session:

* `Session.Lull`: what can happen to a session between two ticks;
* `Session.Lull.forall_liveness`: what every player has who joins or answers, every player has;
* `Hosted.Lull.course`: handlers do nothing else.
-/

namespace VoxelServer

/-- Nothing comes after playing. -/
theorem ProtocolState.eq_play_of_canMoveTo {next : ProtocolState}
    (moved : play.canMoveTo next = true) : next = play := by
  cases next with
  | play => rfl
  | handshake | status | login => cases moved

/-- A keep-alive that is still open after an answer was not the one that was answered. -/
theorem Liveness.answered_of_pending {l : Liveness} {answer id : Int32} {now : Nat}
    (asked : (l.answered answer now).pending = some id) : l.answered answer now = l := by
  unfold answered at asked ⊢
  split
  · rename_i same
    simp [same] at asked
  · rfl

namespace Session

/-- The exchange of keep-alives with the player, if there is one. -/
def liveness? (s : Session) : Option Liveness := s.player.map (·.liveness)

/-- What can happen to a session between two ticks, as far as keep-alives are concerned. -/
inductive Lull : Session → Session → Prop
  /-- Nothing happens to the player. -/
  | keep {s t : Session} (now : t.now = s.now)
      (state : t.state = s.state ∨ s.state.canMoveTo t.state = true)
      (closing : s.closing = true → t.closing = true)
      (liveness : t.liveness? = s.liveness?) : Lull s t
  | enter {s t : Session} (now : t.now = s.now) (state : t.state = .play)
      (closing : s.closing = true → t.closing = true)
      (liveness : t.liveness? = some (.start s.now)) : Lull s t
  | answer (s : Session) (id : Int32) : Lull s (s.acknowledge id)
  | trans {s t u : Session} (first : Lull s t) (second : Lull t u) : Lull s u

/-- Only who plays is a player. -/
def Seated (s : Session) : Prop := s.liveness? ≠ none → s.state = .play

theorem liveness?_acknowledge (s : Session) (id : Int32) :
    (s.acknowledge id).liveness? = s.liveness?.map (·.answered id s.now) := by
  simp only [liveness?, acknowledge, Option.map_map]
  rfl

/-- An answered keep-alive is not open. -/
theorem answered_acknowledge (s : Session) (id : Int32) :
    ∀ live ∈ (s.acknowledge id).liveness?, live.pending ≠ some id := by
  intro live mem
  rw [liveness?_acknowledge] at mem
  obtain ⟨old, -, rfl⟩ := Option.map_eq_some_iff.mp mem
  unfold Liveness.answered
  split
  · simp
  · assumption

namespace Lull

variable {s t : Session}

theorem refl (s : Session) : Lull s s := .keep rfl (.inl rfl) id rfl

theorem now (h : Lull s t) : t.now = s.now := by
  induction h with
  | keep now | enter now => exact now
  | answer => rfl
  | trans _ _ first second => exact second.trans first

theorem closing (h : Lull s t) : s.closing = true → t.closing = true := by
  induction h with
  | keep _ _ closing | enter _ _ closing => exact closing
  | answer => exact id
  | trans _ _ first second => exact second ∘ first

theorem isOpen (h : Lull s t) (still : t.closing = false) : s.closing = false := by
  cases closed : s.closing with
  | false => rfl
  | true => exact absurd (still.symm.trans (h.closing closed)) (by simp)

theorem seated (h : Lull s t) : s.Seated → t.Seated := by
  induction h with
  | keep _ state _ liveness =>
    intro seated player
    have playing := seated (liveness ▸ player)
    rw [playing] at state
    obtain same | moved := state
    · exact same
    · exact ProtocolState.eq_play_of_canMoveTo moved
  | enter _ state => exact fun _ _ => state
  | answer s id =>
    intro seated player
    refine seated fun none => player ?_
    rw [liveness?_acknowledge, none]
    rfl
  | trans _ _ first second => exact second ∘ first

/-- What holds of a player who joins, and is kept by an answer, goes on to hold. -/
theorem forall_liveness {P : Liveness → Prop} (h : Lull s t) (fresh : P (.start s.now))
    (answered : ∀ live id, P live → P (live.answered id s.now))
    (before : ∀ live ∈ s.liveness?, P live) : ∀ live ∈ t.liveness?, P live := by
  induction h with
  | keep _ _ _ liveness => rwa [liveness]
  | enter _ _ _ liveness =>
    intro live mem
    rw [liveness] at mem
    cases mem
    exact fresh
  | answer s id =>
    intro live mem
    rw [liveness?_acknowledge] at mem
    obtain ⟨old, player, rfl⟩ := Option.map_eq_some_iff.mp mem
    exact answered old id (before old player)
  | trans first _ ih₁ ih₂ =>
    rw [first.now] at ih₂
    exact ih₂ fresh answered (ih₁ fresh answered before)

/-- What was answered, or never asked, is not asked between two ticks. -/
theorem pending (h : Lull s t) {id : Int32} (before : ∀ live ∈ s.liveness?, live.pending ≠ some id) :
    ∀ live ∈ t.liveness?, live.pending ≠ some id := by
  refine h.forall_liveness (P := fun live => live.pending ≠ some id) ?_ (fun live other hp => ?_)
    before
  · simp [Liveness.start]
  · unfold Liveness.answered
    split
    · simp
    · exact hp

end Lull

/-! ## The operations of a session -/

variable {s t : Session}

theorem lull_queue (payloads : List Bytes) : Lull s (s.queue payloads) :=
  .keep rfl (.inl rfl) id rfl

theorem lull_send {m : Message} (sent : s.send gameOutbound m = .ok t) : Lull s t := by
  obtain ⟨payloads, -, rfl⟩ := exists_of_map_ok sent
  exact lull_queue payloads

theorem lull_sendBroadcast {b : Broadcast} (sent : s.sendBroadcast gameOutbound b = .ok t) :
    Lull s t := by
  cases b with
  | cached state payloads =>
    cases sent
    unfold sendCached
    split
    · exact lull_queue payloads
    · exact .refl s
  | perConnection state m => exact lull_send sent

theorem lull_setState {next : ProtocolState} (moved : s.setState next = .ok t) : Lull s t := by
  obtain ⟨allowed, rfl⟩ := of_setState moved
  exact .keep rfl (.inr allowed) id rfl

theorem lull_setCompression {threshold : Int32}
    (set : s.setCompression gameOutbound threshold = .ok t) : Lull s t := by
  obtain ⟨s', sent, set⟩ := exists_of_bind_ok set
  cases set
  exact (lull_send sent).trans (.keep rfl (.inl rfl) id rfl)

theorem lull_close : Lull s s.close := .keep rfl (.inl rfl) (fun _ => rfl) rfl

theorem lull_disconnect (reason : String) : Lull s (s.disconnect gameOutbound reason) := by
  obtain same | ⟨t, sent, same⟩ := s.disconnect_cases gameOutbound reason
  · rw [same]
    exact lull_close
  · rw [same]
    exact (lull_send sent).trans lull_close

end Session

/-! ## The bytes of a client -/

/-- What can happen to a session and its server between two ticks. -/
def Hosted.Lull (h h' : Hosted) : Prop :=
  h.session.Lull h'.session ∧ h'.server.config = h.server.config

theorem Hosted.Lull.course : Hosted.Course Hosted.Lull where
  refl h := ⟨.refl _, rfl⟩
  trans first second := ⟨first.1.trans second.1, second.2.trans first.2⟩
  send _ sent := ⟨Session.lull_send sent, rfl⟩
  announce set := ⟨Session.lull_setCompression set, rfl⟩
  move moved := ⟨Session.lull_setState moved, rfl⟩
  enter {h s server player} moved config fresh := by
    obtain ⟨-, rfl⟩ := Session.of_setState moved
    refine ⟨.enter rfl rfl id (congrArg some fresh), ?_⟩
    · rw [← config]
      unfold Hosted.join
      dsimp only
      split <;> rfl
  postJoin _ _ := ⟨.refl _, rfl⟩
  greet _ _ := ⟨.keep rfl (.inl rfl) id rfl, rfl⟩
  acknowledge _ id := ⟨.answer _ id, rfl⟩
  close _ := ⟨Session.lull_close, rfl⟩
  player h {f} same := by
    refine ⟨.keep rfl (.inl rfl) id ?_, rfl⟩
    simp only [Session.liveness?, Option.map_map]
    exact congrArg (h.session.player.map ·) (funext fun p => (same p).1)
  server _ _ heard := ⟨.refl _, heard.config⟩

theorem Hosted.Lull.fail (h : Hosted) (e : Disconnection) : h.Lull (h.fail Protocols.game e) :=
  ⟨Session.lull_disconnect e.reason, rfl⟩

end VoxelServer
