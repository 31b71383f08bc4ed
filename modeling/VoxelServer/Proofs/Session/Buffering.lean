import VoxelServer.Proofs.Frame.Soundness
import VoxelServer.Proofs.Session.Answering

/-!
# What a session buffers

The decoding loop of a session takes frame after frame off what its client has sent. It ends, and
what it leaves to an open session is part of one frame:

* `Hosted.Rounds`, `Hosted.Stops`: the rounds of the loop, and how it ends;
* `Hosted.Rounds.length_le`: no buffer has more rounds than bytes;
* `Line.limit_step`, `Line.short_step`: the limit of a session and the length of its buffer;
* `hostile_bytes_are_bounded`: what this means for any bytes at all.
-/

namespace VoxelServer

namespace Hosted

/-! ## The decoding loop -/

/-- Rounds of the decoding loop: each takes a frame off the buffer of an open session and handles
it. -/
inductive Rounds (protocols : Protocols Handler) :
    Nat → Hosted → Bytes → Hosted → Bytes → Prop
  | none (h : Hosted) (buffer : Bytes) : Rounds protocols 0 h buffer h buffer
  | more {n : Nat} {h h₁ last : Hosted} {buffer payload rest left : Bytes}
      (isOpen : h.session.closing = false)
      (decoded : h.session.frames.decode buffer = .frame payload rest)
      (handled : h.dispatch protocols payload = (.ok (), h₁))
      (others : Rounds protocols n h₁ rest last left) : Rounds protocols (n + 1) h buffer last left

/-- How the decoding loop ends at a buffer. -/
inductive Stops (protocols : Protocols Handler) (h : Hosted) (buffer : Bytes) :
    Except Disconnection Unit × Hosted × Bytes → Prop
  | closing (closed : h.session.closing = true) : Stops protocols h buffer (.ok (), h, buffer)
  | incomplete (isOpen : h.session.closing = false)
      (decoded : h.session.frames.decode buffer = .incomplete) :
      Stops protocols h buffer (.ok (), h, buffer)
  | invalid {e : CodecError} {rest : Bytes} (isOpen : h.session.closing = false)
      (decoded : h.session.frames.decode buffer = .invalid e rest) :
      Stops protocols h buffer (.error (.codec e), h.fail protocols (.codec e), rest)
  | refused {e : Disconnection} {h₁ : Hosted} {payload rest : Bytes}
      (isOpen : h.session.closing = false)
      (decoded : h.session.frames.decode buffer = .frame payload rest)
      (failed : h.dispatch protocols payload = (.error e, h₁)) :
      Stops protocols h buffer (.error e, h₁.fail protocols e, rest)

variable {protocols : Protocols Handler}

/-- Every round takes a byte at least. -/
theorem Rounds.length_le {n : Nat} {h last : Hosted} {buffer left : Bytes}
    (rounds : Rounds protocols n h buffer last left) : n + left.length ≤ buffer.length := by
  induction rounds with
  | none => omega
  | more _ decoded _ _ ih =>
    have := FrameCodec.length_rest_of_frame decoded
    omega

/-- Working off a buffer is some rounds and an end. -/
theorem exists_rounds (protocols : Protocols Handler) (h : Hosted) (buffer : Bytes) :
    ∃ n last left, Rounds protocols n h buffer last left ∧
      Stops protocols last left (consume protocols h buffer) := by
  fun_induction consume protocols h buffer with
  | case1 h buffer closing => exact ⟨0, h, buffer, .none h buffer, .closing closing⟩
  | case2 h buffer isOpen incomplete =>
    exact ⟨0, h, buffer, .none h buffer, .incomplete (by simpa using isOpen) incomplete⟩
  | case3 h buffer isOpen e rest invalid =>
    exact ⟨0, h, buffer, .none h buffer, .invalid (by simpa using isOpen) invalid⟩
  | case4 h buffer isOpen payload rest frame h₁ dispatched shorter ih =>
    obtain ⟨n, last, left, rounds, stops⟩ := ih
    exact ⟨n + 1, last, left, .more (by simpa using isOpen) frame dispatched rounds, stops⟩
  | case5 h buffer isOpen payload rest frame e h₁ dispatched =>
    exact ⟨0, h, buffer, .none h buffer, .refused (by simpa using isOpen) frame dispatched⟩

/-- The loop leaves an open session at part of a frame. -/
theorem Stops.incomplete_of_open {h : Hosted} {buffer : Bytes}
    {result : Except Disconnection Unit × Hosted × Bytes} (stops : Stops protocols h buffer result)
    (isOpen : result.2.1.session.closing = false) :
    result.2.1.session.frames.decode result.2.2 = .incomplete := by
  cases stops with
  | closing closed => exact absurd (closed.symm.trans isOpen) (by simp)
  | incomplete _ decoded => exact decoded
  | invalid | refused =>
    rw [closing_fail] at isOpen
    cases isOpen

/-- What is not worked off of an open session is shorter than the longest frame. -/
theorem length_consume (h : Hosted) (buffer : Bytes)
    (isOpen : (consume protocols h buffer).2.1.session.closing = false) :
    (consume protocols h buffer).2.2.length <
      (consume protocols h buffer).2.1.session.frames.maxLength + 5 := by
  obtain ⟨n, last, left, -, stops⟩ := exists_rounds protocols h buffer
  have sound := FrameCodec.decode_sound
    (consume protocols h buffer).2.1.session.frames.toFrameCodec
    (consume protocols h buffer).2.2
  rw [stops.incomplete_of_open isOpen] at sound
  exact sound

end Hosted

/-! ## The limit of a session -/

namespace Line

theorem isOpen_step (l : Line) {a : Action} (isOpen : (l.step a).session.closing = false) :
    l.session.closing = false := by
  cases ticks : a.isTick with
  | false => exact (l.lull_step ticks).isOpen isOpen
  | true =>
    cases a with
    | tick now =>
      have ticked := l.ticked_step now
      revert isOpen ticked
      generalize (l.step (.tick now)).session = t
      intro isOpen ticked
      cases ticked with
      | idle => exact isOpen
      | timedOut _ wasOpen | pinged _ wasOpen => exact wasOpen
    | _ => cases ticks

/-- The bytes that an open session has not worked off are part of one frame. -/
def Short (l : Line) : Prop :=
  l.session.closing = false →
    l.connection.inbound.length < l.session.frames.maxLength + 5

theorem short_step {l : Line} (short : l.Short) (a : Action) : (l.step a).Short := by
  intro isOpen
  have attempt (result : Except CodecError Session) :
      (l.attempt result).connection.inbound = l.connection.inbound := by
    cases result <;> rfl
  have kept (same : (l.step a).connection.inbound = l.connection.inbound) :
      (l.step a).connection.inbound.length < (l.step a).session.frames.maxLength + 5 := by
    rw [same, (l.keeps_step a).1]
    exact short (l.isOpen_step isOpen)
  cases a with
  | receive bytes => exact Hosted.length_consume _ _ isOpen
  | meanwhile | write | unpoll => exact kept rfl
  | poll =>
    refine kept ?_
    unfold step Session.poll
    cases l.session.outbound <;> rfl
  | _ => exact kept (attempt _)

theorem short_run {l : Line} (short : l.Short) (actions : List Action) :
    (l.run actions).session.frames.maxLength = l.session.frames.maxLength ∧
      (l.run actions).Short := by
  induction actions generalizing l with
  | nil => exact ⟨rfl, short⟩
  | cons a actions ih =>
    obtain ⟨limit, short⟩ := ih (short_step short a)
    exact ⟨limit.trans (l.keeps_step a).1, short⟩

end Line

/-- **Hostile bytes are bounded.** Whatever bytes come, a codec waits for more only while it has
less than its limit and five bytes. A payload it takes is within the limit and comes off the buffer
with its length and exactly the bytes this announces, and if it was compressed it is all that its
stream holds. A fault is one of the length, and leaves the buffer alone, or takes off one frame. So
the decoding loop ends after no more rounds than there are bytes. What it leaves to an open session
is less than the limit and five bytes, and in every run of the game, with any compressor, this limit
is the configured one. -/
theorem hostile_bytes_are_bounded :
    (∀ (codec : FrameCodec) (buffer : Bytes), codec.Sound buffer (codec.decode buffer)) ∧
    (∀ (protocols : Protocols Handler) (h : Hosted) (buffer : Bytes),
      (∀ n last left, Hosted.Rounds protocols n h buffer last left →
        n + left.length ≤ buffer.length) ∧
      ∃ n last left, Hosted.Rounds protocols n h buffer last left ∧
        Hosted.Stops protocols last left (Hosted.consume protocols h buffer)) ∧
    (∀ (protocols : Protocols Handler) (server : Server) (c : Connection) (bytes : Bytes),
      let after := (c.receive protocols server bytes).2.1
      after.session.closing = false →
        after.inbound.length < after.session.frames.maxLength + 5) ∧
    ∀ (server : Server) (deflate : Bytes → Bytes) (actions : List Action),
      let l := (Line.start server deflate).run actions
      l.session.frames.maxLength = server.config.maxFrameLength ∧
        (l.session.closing = false →
          l.connection.inbound.length < server.config.maxFrameLength + 5) := by
  refine ⟨FrameCodec.decode_sound, fun protocols h buffer => ?_, fun protocols => ?_, ?_⟩
  · exact ⟨fun _ _ _ rounds => rounds.length_le, Hosted.exists_rounds protocols h buffer⟩
  · exact fun server c bytes => Hosted.length_consume _ _
  · intro server deflate actions
    have short : (Line.start server deflate).Short := fun _ => Nat.add_pos_right _ (by decide)
    obtain ⟨limit, short⟩ := Line.short_run short actions
    have limit : ((Line.start server deflate).run actions).session.frames.maxLength =
        server.config.maxFrameLength := limit
    rw [Line.Short, limit] at short
    exact ⟨limit, short⟩

/-- The first bytes of a handshake wait for the others. -/
theorem unfinished_handshake_is_bounded :
    let l := (Line.start (.start {} .acceptAll) Zlib.deflate).run [.receive [16, 0, 210]]
    l.session.closing = false ∧ l.connection.inbound = [16, 0, 210] ∧
      l.connection.inbound.length < ({} : Config).maxFrameLength + 5 := by
  intro l
  have isOpen : l.session.closing = false := by decide +kernel
  obtain ⟨-, -, -, runs⟩ := hostile_bytes_are_bounded
  exact ⟨isOpen, by decide +kernel, (runs (.start {} .acceptAll) Zlib.deflate _).2 isOpen⟩

end VoxelServer
