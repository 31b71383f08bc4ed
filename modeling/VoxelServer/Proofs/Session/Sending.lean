import VoxelServer.Proofs.Session.Handling

/-!
# What a session sends

Every frame of a session comes from a payload, and the framing changes only behind the payload that
announces it:

* `Session.Sends`: a session frames some payloads and becomes another one;
* `Session.Sends.outbound`: its frames are those of a writer that follows its own announcements;
* `Session.sends_send`, `Session.sends_tick` and so on: whatever the game does to a session is of
  this kind;
* `sends_receive`: and so is what the bytes of a client do.
-/

namespace VoxelServer

namespace Session

/-- How a session becomes another one, with the payloads it frames on the way, in order. -/
inductive Sends : Session → List Bytes → Session → Prop
  /-- Nothing is framed. -/
  | idle {s t : Session} (outbound : t.outbound = s.outbound) (frames : t.frames = s.frames) :
      Sends s [] t
  /-- Payloads are framed that announce nothing. -/
  | queue (s : Session) {payloads : List Bytes} (plain : ∀ p ∈ payloads, Plain p) :
      Sends s payloads (s.queue payloads)
  /-- A threshold is announced, and used from there on. -/
  | announce (s : Session) (threshold : Int32) :
      Sends s [FrameCodec.announcement threshold]
        { s.queue [FrameCodec.announcement threshold] with
          frames := s.frames.setCompression threshold }
  | trans {s t u : Session} {payloads more : List Bytes} (first : Sends s payloads t)
      (second : Sends t more u) : Sends s (payloads ++ more) u

/-- The frames that come behind the queue, and the framing after them, are those of a writer that
follows its own announcements. -/
theorem Sends.outbound {s t : Session} {payloads : List Bytes} (h : Sends s payloads t) :
    t.outbound = s.outbound ++ (s.frames.frameAll payloads).1 ∧
      t.frames = (s.frames.frameAll payloads).2 := by
  induction h with
  | idle outbound frames => simp [Framing.frameAll, outbound, frames]
  | queue s plain => simp [Framing.frameAll_plain _ plain, Session.queue]
  | announce s threshold =>
    simp [Framing.frameAll, Framing.following_announcement, Session.queue]
  | @trans s t u payloads more _ _ ih₁ ih₂ =>
    obtain ⟨outbound₁, frames₁⟩ := ih₁
    obtain ⟨outbound₂, frames₂⟩ := ih₂
    rw [Framing.frameAll_append, outbound₂, frames₂, outbound₁, frames₁, List.append_assoc]
    exact ⟨rfl, rfl⟩

/-- Whatever is sent, the limit and the compressor stay. -/
theorem Sends.keeps {s t : Session} {payloads : List Bytes} (h : Sends s payloads t) :
    t.frames.maxLength = s.frames.maxLength ∧ t.frames.deflate = s.frames.deflate := by
  rw [h.outbound.2]
  exact s.frames.frameAll_keeps payloads

theorem Sends.cons {s t u : Session} {payloads : List Bytes} (first : Sends s payloads t)
    (second : ∃ more, Sends t more u) : ∃ all, Sends s all u := by
  obtain ⟨more, h⟩ := second
  exact ⟨payloads ++ more, first.trans h⟩

/-! ## The operations of a session -/

variable {s t : Session}

theorem sends_send {m : Message} (other : m.type ≠ .setCompression)
    (sent : s.send gameOutbound m = .ok t) : ∃ payloads, Sends s payloads t := by
  obtain ⟨payloads, encoded, rfl⟩ := exists_of_map_ok sent
  exact ⟨payloads, .queue s (encode_plain encoded other)⟩

/-- A broadcast that was prepared for some state. -/
theorem sends_sendBroadcast {state : ProtocolState} {m : Message} {b : Broadcast}
    (other : m.type ≠ .setCompression) (prepared : (gameOutbound.get state).prepare m = .ok b)
    (sent : s.sendBroadcast gameOutbound b = .ok t) : ∃ payloads, Sends s payloads t := by
  have plain := prepare_plain prepared other
  cases b with
  | cached state payloads =>
    cases sent
    unfold sendCached
    split
    · exact ⟨payloads, .queue s plain⟩
    · exact ⟨[], .idle rfl rfl⟩
  | perConnection state carried =>
    cases plain
    exact sends_send other sent

theorem sends_setState {next : ProtocolState} (moved : s.setState next = .ok t) :
    ∃ payloads, Sends s payloads t := by
  obtain ⟨-, rfl⟩ := of_setState moved
  exact ⟨[], .idle rfl rfl⟩

theorem sends_setCompression {threshold : Int32}
    (set : s.setCompression gameOutbound threshold = .ok t) :
    Sends s [FrameCodec.announcement threshold] t := by
  obtain ⟨s', sent, set⟩ := exists_of_bind_ok set
  obtain ⟨payloads, encoded, rfl⟩ := exists_of_map_ok sent
  cases set
  rw [encode_setCompression encoded]
  exact .announce s threshold

/-- A login can set any threshold. -/
theorem setCompression_login (login : s.state = .login) (threshold : Int32) :
    ∃ t, s.setCompression gameOutbound threshold = .ok t := by
  have encoded := encode_announcement s.ctx threshold
  rw [← login] at encoded
  rw [setCompression, send, encoded]
  exact ⟨_, rfl⟩

theorem sends_close : Sends s [] s.close := .idle rfl rfl

theorem sends_disconnect (reason : String) :
    ∃ payloads, Sends s payloads (s.disconnect gameOutbound reason) := by
  obtain same | ⟨t, sent, same⟩ := s.disconnect_cases gameOutbound reason
  · rw [same]
    exact ⟨[], sends_close⟩
  · obtain ⟨payloads, h⟩ := sends_send (by simp [Message.disconnectText, Message.type]) sent
    rw [same]
    exact h.cons ⟨[], sends_close⟩

theorem sends_tick (config : Config) (now : Nat) :
    ∃ payloads, Sends s payloads (s.tick gameOutbound config now).2 := by
  have idle {t : Session} (outbound : t.outbound = s.outbound) (frames : t.frames = s.frames) :
      ∃ payloads, Sends s payloads t := ⟨[], .idle outbound frames⟩
  unfold tick
  dsimp only
  split
  · exact idle rfl rfl
  split
  · exact idle rfl rfl
  split
  · exact (Sends.idle rfl rfl : Sends s [] { s with now }).cons (sends_disconnect "Timed out")
  split
  · split
    · rename_i sent
      obtain ⟨payloads, h⟩ := sends_send (by simp [Message.type]) sent
      refine ⟨[] ++ payloads, .trans (.idle ?_ ?_) h⟩ <;> rfl
    · exact idle rfl rfl
  · exact idle rfl rfl

theorem sends_acknowledge (id : Int32) : Sends s [] (s.acknowledge id) := .idle rfl rfl

end Session

/-! ## The bytes of a client -/

/-- What has happened to a hosted session is that it framed some payloads. -/
def Hosted.Sends (h h' : Hosted) : Prop := ∃ payloads, h.session.Sends payloads h'.session

namespace Hosted.Sends

theorem idle {h h' : Hosted} (outbound : h'.session.outbound = h.session.outbound)
    (frames : h'.session.frames = h.session.frames) : h.Sends h' :=
  ⟨[], .idle outbound frames⟩

theorem trans {a b c : Hosted} : a.Sends b → b.Sends c → a.Sends c := by
  rintro ⟨payloads, first⟩ ⟨more, second⟩
  exact ⟨payloads ++ more, first.trans second⟩

/-- Handlers only frame payloads, and announce a threshold where they set it. -/
theorem course : Hosted.Course Hosted.Sends where
  refl _ := .idle rfl rfl
  trans := trans
  send ordinary := Session.sends_send ordinary.announces
  announce set := ⟨_, Session.sends_setCompression set⟩
  move := Session.sends_setState
  enter moved _ _ := trans (b := ⟨_, _⟩) (Session.sends_setState moved) (.idle rfl rfl)
  postJoin _ _ := .idle rfl rfl
  greet _ _ := .idle rfl rfl
  acknowledge _ id := ⟨[], Session.sends_acknowledge id⟩
  close h := ⟨[], h.session.sends_close⟩
  player _ _ _ := .idle rfl rfl
  server _ _ _ := .idle rfl rfl

end Hosted.Sends

/-- Bytes of a client make the session frame payloads and do nothing else to what it sends. -/
theorem sends_receive (server : Server) (c : Connection) (bytes : Bytes) :
    ∃ payloads, c.session.Sends payloads (c.receive Protocols.game server bytes).2.1.session :=
  Hosted.Sends.course.receive_within (fun h e => h.session.sends_disconnect e.reason) server c bytes

end VoxelServer
