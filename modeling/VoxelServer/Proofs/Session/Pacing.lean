import VoxelServer.Proofs.Session.Admission
import VoxelServer.Proofs.Session.Answering

/-!
# The pace of keep-alives

A session is ticked, and its client answers keep-alives, in any order and with any numbers:

* `Beat`, `Session.after`: ticks and answers, and what a run of them makes of a session;
* `Session.Pings`: a tick queues the frame of a keep-alive;
* `Session.unanswered`: the keep-alives of a run that nothing has answered yet, as the frames and
  the answers tell;
* `Session.Heeds`: what one tick or answer does to the last answer;
* `keep_alives_are_paced`: the rules all of this follows.
-/

namespace VoxelServer

/-- What moves the keep-alives of a session. -/
inductive Beat
  | tick (now : Nat)
  /-- The client has answered the keep-alive with some number. -/
  | answer (id : Int32)
  deriving DecidableEq

namespace Beat

/-- The clock does not go back. -/
def Ordered (now : Nat) : List Beat → Prop
  | [] => True
  | tick next :: beats => now ≤ next ∧ Ordered next beats
  | answer _ :: beats => Ordered now beats

/-- The clock after a run. -/
def clock (now : Nat) : List Beat → Nat
  | [] => now
  | tick next :: beats => clock next beats
  | answer _ :: beats => clock now beats

theorem ordered_append (now : Nat) (early late : List Beat) :
    Ordered now (early ++ late) ↔ Ordered now early ∧ Ordered (clock now early) late := by
  induction early generalizing now with
  | nil => exact (and_iff_right trivial).symm
  | cons b early ih =>
    cases b with
    | tick next => simp only [List.cons_append, Ordered, clock, ih, and_assoc]
    | answer id => exact ih now

end Beat

namespace Session

/-- One tick or answer. -/
def beat (config : Config) (s : Session) : Beat → Session
  | .tick now => (s.tick gameOutbound config now).2
  | .answer id => s.acknowledge id

def after (config : Config) (s : Session) (beats : List Beat) : Session :=
  beats.foldl (beat config) s

/-- The keep-alive that waits for its answer. -/
def open? (s : Session) : Option Int32 := s.liveness?.bind (·.pending)

/-- When the last answer came. -/
def lastAnswer? (s : Session) : Option Nat := s.liveness?.map (·.lastAnswer)

/-- A tick queues the frame of a keep-alive. -/
def Pings (config : Config) (s : Session) (now : Nat) (id : Int32) : Prop :=
  (s.beat config (.tick now)).closing = false ∧
    (s.beat config (.tick now)).outbound = s.outbound ++ [s.frames.encode (keepAlivePayload id)]

instance (config : Config) (s : Session) (now : Nat) (id : Int32) :
    Decidable (s.Pings config now id) :=
  inferInstanceAs (Decidable (_ ∧ _))

/-- The keep-alives that nothing has answered by the end of a run. A tick that queues one adds its
number to those there were, and an answer takes its number off them. -/
def unanswered (config : Config) (s : Session) (ids : List Int32) : List Beat → List Int32
  | [] => ids
  | .tick now :: beats =>
    let id := Int32.ofNat now
    (s.beat config (.tick now)).unanswered config
      (if s.Pings config now id then ids ++ [id] else ids) beats
  | .answer id :: beats =>
    (s.beat config (.answer id)).unanswered config (ids.filter (· ≠ id)) beats

/-- A tick moves the clock and no answer. An answer to the keep-alive that is open counts from the
last tick on, and any other one does nothing at all. -/
def Heeds (config : Config) (s : Session) : Beat → Prop
  | .tick now => (s.beat config (.tick now)).now = now ∧
    (s.beat config (.tick now)).lastAnswer? = s.lastAnswer?
  | .answer id =>
    if s.open? = some id then
      (s.beat config (.answer id)).open? = none ∧
        (s.beat config (.answer id)).lastAnswer? = some s.now
    else s.beat config (.answer id) = s

/-- The last answer is not from a time that is still to come. -/
def Settled (s : Session) : Prop := ∀ time ∈ s.lastAnswer?, time ≤ s.now

/-- No keep-alive of a run is answered. -/
def Unheard (config : Config) (s : Session) (beats : List Beat) : Prop :=
  ∀ early id late, beats = early ++ .answer id :: late → (s.after config early).open? ≠ some id

/-- A tick ends an open session and does nothing else but to tell the client that it timed out. -/
def TimesOut (config : Config) (s : Session) (now : Nat) : Prop :=
  s.closing = false ∧ ∃ goodbye,
    (gameOutbound.get s.state).encode s.ctx (.disconnectText "Timed out") = .ok [goodbye] ∧
    s.beat config (.tick now) = ({ s with now }.queue [goodbye]).close

/-- A player who has last answered at some time. -/
structure Waiting (s : Session) (time : Nat) : Prop where
  playing : s.state = .play
  isOpen : s.closing = false
  answered : s.lastAnswer? = some time

variable {config : Config} {s : Session} {now : Nat} {id : Int32} {beats : List Beat}

theorem beat_of_stale (stale : s.open? ≠ some id) : s.beat config (.answer id) = s := by
  show s.acknowledge id = s
  unfold acknowledge
  cases here : s.player with
  | none =>
    rw [Option.map_none, ← here]
  | some player =>
    have other : player.liveness.pending ≠ some id := by
      simpa [open?, liveness?, here] using stale
    rw [Option.map_some, Liveness.answered, if_neg other, ← here]

/-- An answer to the keep-alive that is open. -/
theorem liveness?_of_answer (asked : s.open? = some id) :
    (s.beat config (.answer id)).liveness? =
      s.liveness?.map fun live => { live with pending := none, lastAnswer := s.now } := by
  obtain ⟨live, here, pending⟩ := Option.bind_eq_some_iff.mp asked
  rw [beat, liveness?_acknowledge, here, Option.map_some, Liveness.answered, if_pos pending,
    Option.map_some]

theorem open?_of_answer (asked : s.open? = some id) :
    (s.beat config (.answer id)).open? = none := by
  rw [open?, liveness?_of_answer asked]
  cases s.liveness? <;> rfl

theorem lastAnswer?_of_answer (asked : s.open? = some id) :
    (s.beat config (.answer id)).lastAnswer? = some s.now := by
  obtain ⟨live, here, -⟩ := Option.bind_eq_some_iff.mp asked
  rw [lastAnswer?, liveness?_of_answer asked, here]
  rfl

theorem liveness?_disconnect (s : Session) (reason : String) :
    (s.disconnect gameOutbound reason).liveness? = s.liveness? := by
  obtain same | ⟨t, sent, same⟩ := s.disconnect_cases gameOutbound reason
  · rw [same]
    rfl
  · obtain ⟨payloads, -, rfl⟩ := exists_of_map_ok sent
    rw [same]
    rfl

/-- A tick queues its own keep-alive and notes it, or does neither. -/
theorem tick_cases (config : Config) (s : Session) (now : Nat) :
    ((∀ id, ¬ s.Pings config now id) ∧ (s.beat config (.tick now)).liveness? = s.liveness?) ∨
    ∃ live, s.liveness? = some live ∧ live.isDue config now = true ∧
      s.Pings config now (Int32.ofNat now) ∧
      (s.beat config (.tick now)).liveness? = some (live.sent (Int32.ofNat now) now) := by
  have ticked := s.ticked_tick config now
  unfold Pings
  rw [beat]
  revert ticked
  generalize (s.tick gameOutbound config now).2 = t
  intro ticked
  cases ticked with
  | idle => exact .inl ⟨fun id pings => by simp at pings, rfl⟩
  | timedOut =>
    refine .inl ⟨fun id pings => ?_, liveness?_disconnect _ _⟩
    rw [closing_disconnect] at pings
    cases pings.1
  | @pinged live _ u playing _ player _ due _ _ still asked sent queued =>
    obtain ⟨payloads, encoded, rfl⟩ := exists_of_map_ok sent
    obtain rfl := keepAlive_of_encode encoded
    exact .inr ⟨live, player, due, ⟨still, queued⟩, asked⟩

/-- The frame tells whose keep-alive it is. -/
theorem eq_of_pings (undoes : FrameCodec.Undoes s.frames.deflate) (pings : s.Pings config now id) :
    id = Int32.ofNat now := by
  obtain ⟨silent, -⟩ | ⟨-, -, -, own, -⟩ := s.tick_cases config now
  · exact absurd pings (silent id)
  · have frames := List.append_cancel_left (pings.2.symm.trans own.2)
    exact eq_of_encode_keepAlive undoes (List.cons.inj frames).1

/-- What the answers and the frames tell of one beat is what the session notes. -/
theorem heeds (config : Config) (s : Session) (b : Beat) : s.Heeds config b := by
  cases b with
  | tick now =>
    refine ⟨(s.ticked_tick config now).clock, ?_⟩
    obtain ⟨-, same⟩ | ⟨live, here, -, -, asked⟩ := s.tick_cases config now
    · rw [lastAnswer?, same, lastAnswer?]
    · rw [lastAnswer?, asked, lastAnswer?, here]
      rfl
  | answer id =>
    by_cases asked : s.open? = some id
    · rw [Heeds, if_pos asked]
      exact ⟨open?_of_answer asked, lastAnswer?_of_answer asked⟩
    · rw [Heeds, if_neg asked]
      exact beat_of_stale asked

theorem now_beat (config : Config) (s : Session) (b : Beat) :
    (s.beat config b).now = Beat.clock s.now [b] := by
  cases b with
  | tick now => exact (s.ticked_tick config now).clock
  | answer id => rfl

/-- The last keep-alive was sent between some time and the last tick. -/
def SentSince (s : Session) (time : Nat) : Prop :=
  ∀ live ∈ s.liveness?, time ≤ live.lastSent ∧ live.lastSent ≤ s.now

theorem SentSince.after {time : Nat} (config : Config) (h : s.SentSince time)
    (ordered : Beat.Ordered s.now beats) : (s.after config beats).SentSince time := by
  induction beats generalizing s with
  | nil => exact h
  | cons b beats ih =>
    cases b with
    | tick now =>
      have clock := s.now_beat config (.tick now)
      refine ih ?_ (clock ▸ ordered.2)
      intro live mem
      rw [clock]
      obtain ⟨-, same⟩ | ⟨old, here, -, -, asked⟩ := s.tick_cases config now
      · rw [same] at mem
        exact ⟨(h live mem).1, Nat.le_trans (h live mem).2 ordered.1⟩
      · rw [asked] at mem
        cases mem
        exact ⟨Nat.le_trans (Nat.le_trans (h old here).1 (h old here).2) ordered.1, Nat.le_refl _⟩
    | answer id =>
      refine ih ?_ ordered
      intro live mem
      rw [beat, liveness?_acknowledge] at mem
      obtain ⟨old, here, rfl⟩ := Option.map_eq_some_iff.mp mem
      unfold Liveness.answered
      split <;> exact h old here

/-- As long as the clock does not go back, answers come later and later. -/
theorem Settled.beat {b : Beat} (config : Config) (h : s.Settled)
    (ordered : Beat.Ordered s.now [b]) :
    (s.beat config b).Settled ∧ ∀ time, s.lastAnswer? = some time →
      ∃ later, (s.beat config b).lastAnswer? = some later ∧ time ≤ later := by
  have heeded := s.heeds config b
  cases b with
  | tick now =>
    obtain ⟨clock, same⟩ := heeded
    rw [Settled, same, clock]
    exact ⟨fun time answered => Nat.le_trans (h time answered) ordered.1,
      fun time answered => ⟨time, answered, Nat.le_refl _⟩⟩
  | answer id =>
    rw [Heeds] at heeded
    split at heeded
    · rw [Settled, heeded.2]
      exact ⟨fun time answered => Nat.le_of_eq (Option.some.inj answered).symm,
        fun time answered => ⟨s.now, rfl, h time answered⟩⟩
    · rw [heeded]
      exact ⟨h, fun time answered => ⟨time, answered, Nat.le_refl _⟩⟩

theorem Settled.after (config : Config) (h : s.Settled) (ordered : Beat.Ordered s.now beats) :
    (s.after config beats).Settled ∧ ∀ time, s.lastAnswer? = some time →
      ∃ later, (s.after config beats).lastAnswer? = some later ∧ time ≤ later := by
  induction beats generalizing s with
  | nil => exact ⟨h, fun time answered => ⟨time, answered, Nat.le_refl _⟩⟩
  | cons b beats ih =>
    obtain ⟨first, next⟩ := (Beat.ordered_append _ [b] beats).mp ordered
    rw [← s.now_beat config] at next
    obtain ⟨settled, grows⟩ := h.beat config first
    obtain ⟨settled', grows'⟩ := ih settled next
    refine ⟨settled', fun time answered => ?_⟩
    obtain ⟨middle, known, le⟩ := grows time answered
    obtain ⟨later, known', le'⟩ := grows' middle known
    exact ⟨later, known', Nat.le_trans le le'⟩

/-! ## Silence -/

theorem Unheard.tail {b : Beat} (h : s.Unheard config (b :: beats)) :
    (s.beat config b).Unheard config beats :=
  fun early id late split => h (b :: early) id late (congrArg (b :: ·) split)

/-- No tick that is not late enough changes who waits. -/
theorem Waiting.tick {time : Nat} (h : s.Waiting time)
    (early : now ≤ time + config.patience) : (s.beat config (.tick now)).Waiting time := by
  have kept : (s.beat config (.tick now)).lastAnswer? = s.lastAnswer? :=
    (s.heeds config (.tick now)).2
  have ticked := s.ticked_tick config now
  obtain ⟨live, here, rfl⟩ := Option.map_eq_some_iff.mp h.answered
  rw [beat] at kept ⊢
  revert kept ticked
  generalize (s.tick gameOutbound config now).2 = t
  intro kept ticked
  cases ticked with
  | idle => exact ⟨h.playing, h.isOpen, kept.trans h.answered⟩
  | timedOut _ _ player overdue =>
    obtain rfl := Option.some.inj (here.symm.trans player)
    exact absurd (Liveness.isOverdue_iff.mp overdue) (Nat.not_lt.mpr early)
  | pinged _ _ _ _ _ _ state still => exact ⟨state.trans h.playing, still, kept.trans h.answered⟩

theorem Waiting.after {time : Nat} (h : s.Waiting time) (unheard : s.Unheard config beats)
    (early : ∀ now, .tick now ∈ beats → now ≤ time + config.patience) :
    (s.after config beats).Waiting time := by
  induction beats generalizing s with
  | nil => exact h
  | cons b beats ih =>
    refine ih ?_ unheard.tail fun now mem => early now (List.mem_cons_of_mem _ mem)
    cases b with
    | tick now => exact h.tick (early now List.mem_cons_self)
    | answer id =>
      have stale : s.open? ≠ some id := unheard [] id beats rfl
      rw [beat_of_stale stale]
      exact h

end Session

/-! ## Sessions of the game -/

/-- The clock of a session does not go back in a run. -/
def Action.Ordered (now : Nat) : List Action → Prop
  | [] => True
  | tick next :: actions => now ≤ next ∧ Ordered next actions
  | _ :: actions => Ordered now actions

theorem Session.settled_iff {s : Session} :
    s.Settled ↔ ∀ live ∈ s.liveness?, live.lastAnswer ≤ s.now := by
  constructor
  · intro h live here
    exact h _ (Option.map_eq_some_iff.mpr ⟨live, here, rfl⟩)
  · intro h time answered
    obtain ⟨live, here, rfl⟩ := Option.map_eq_some_iff.mp answered
    exact h live here

/-- Players join by the clock, so nobody's last answer is ahead of it. -/
theorem Line.settled_run {l : Line} {actions : List Action} (settled : l.session.Settled)
    (ordered : Action.Ordered l.session.now actions) : (l.run actions).session.Settled := by
  induction actions generalizing l with
  | nil => exact settled
  | cons a actions ih =>
    cases ticks : a.isTick with
    | true =>
      cases a with
      | tick now =>
        obtain ⟨clock, same⟩ : (l.step (.tick now)).session.now = now ∧
            (l.step (.tick now)).session.lastAnswer? = l.session.lastAnswer? :=
          l.session.heeds l.server.config (.tick now)
        refine ih ?_ (clock.symm ▸ ordered.2)
        intro time answered
        have past := settled time (same ▸ answered)
        rw [clock]
        exact Nat.le_trans past ordered.1
      | _ => cases ticks
    | false =>
      have lull := l.lull_step ticks
      have rest : Action.Ordered l.session.now actions := by
        cases a with
        | tick now => cases ticks
        | _ => exact ordered
      rw [← lull.now] at rest
      refine ih (Session.settled_iff.mpr ?_) rest
      rw [lull.now]
      refine lull.forall_liveness (Nat.le_refl _) (fun live id past => ?_)
        (Session.settled_iff.mp settled)
      unfold Liveness.answered
      split
      · exact Nat.le_refl _
      · exact past

end VoxelServer
