import VoxelServer.Proofs.Protocol.Registries
import VoxelServer.Session.Connection

/-!
# What the programs of handlers can do

A handler is put together from few programs. What each of them keeps the handler keeps:

* `SessionM.Within`: a program moves along a relation of hosted sessions, also where it fails;
* `SessionM.Within.bind` and the other closure properties, for any reflexive and transitive
  relation;
* `Hosted.consume_steps`, `Hosted.consume_within`: so does working off a buffer, if handling a
  payload does, and failing;
* `Hosted.of_consume_error`: what a buffer that is refused goes back to;
* `Session.disconnect_cases`, `Session.of_setState`: what ending a session and moving it can be.
-/

namespace VoxelServer

namespace Session

variable {registries : PerState OutboundRegistry} {s t : Session}

/-- A session that is disconnected closes, and sends the reason where it can. -/
theorem disconnect_cases (registries : PerState OutboundRegistry) (s : Session) (reason : String) :
    s.disconnect registries reason = s.close ∨
      ∃ t, s.send registries (.disconnectText reason) = .ok t ∧
        s.disconnect registries reason = t.close := by
  unfold disconnect
  split
  · cases sent : s.send registries (.disconnectText reason) with
    | ok t => exact .inr ⟨t, rfl, rfl⟩
    | error e => exact .inl rfl
  · exact .inl rfl

theorem closing_disconnect (registries : PerState OutboundRegistry) (s : Session)
    (reason : String) : (s.disconnect registries reason).closing = true := by
  obtain same | ⟨t, -, same⟩ := s.disconnect_cases registries reason <;> rw [same] <;> rfl

theorem of_setState {next : ProtocolState} (moved : s.setState next = .ok t) :
    s.state.canMoveTo next = true ∧ t = { s with state := next } := by
  unfold setState at moved
  split at moved
  · exact ⟨‹_›, (Except.ok.inj moved).symm⟩
  · cases moved

end Session

namespace SessionM

variable {α β : Type} {registries : PerState OutboundRegistry} {R : Hosted → Hosted → Prop}

/-- A program that moves hosted sessions along a relation only. -/
def Within (registries : PerState OutboundRegistry) (R : Hosted → Hosted → Prop)
    (run : SessionM α) : Prop :=
  ∀ h : Hosted, R h (run registries h).2

/-- Programs one after the other. The second one runs where the first one succeeds. -/
theorem run_bind (x : SessionM α) (f : α → SessionM β) (h : Hosted) :
    (x >>= f) registries h =
      match x registries h with
      | (.ok a, h) => f a registries h
      | (.error e, h) => (.error e, h) := by
  refine (run_bind_state (x registries) (fun a => f a registries) h).trans ?_
  cases x registries h with
  | mk result h' => cases result <;> rfl

theorem Within.bind {x : SessionM α} {f : α → SessionM β} (trans : ∀ {a b c}, R a b → R b c → R a c)
    (hx : Within registries R x) (hf : ∀ a, Within registries R (f a)) :
    Within registries R (x >>= f) := by
  intro h
  have first := hx h
  rw [run_bind]
  cases done : x registries h with
  | mk result h' =>
    rw [done] at first
    cases result with
    | ok a => exact trans first (hf a h')
    | error e => exact first

theorem Within.pure (refl : ∀ h, R h h) (a : α) : Within registries R (Pure.pure a) := refl

theorem Within.get (refl : ∀ h, R h h) : Within registries R (MonadState.get : SessionM Hosted) :=
  refl

theorem Within.refuse (refl : ∀ h, R h h) (e : CodecError) :
    Within registries R (SessionM.refuse e : SessionM α) := refl

/-- Nothing runs behind a refusal. -/
theorem Within.refuse_bind (refl : ∀ h, R h h) (e : CodecError) (f : α → SessionM β) :
    Within registries R (SessionM.refuse e >>= f) := by
  intro h
  rw [run_bind]
  exact refl h

theorem Within.kick (refl : ∀ h, R h h) (reason : String) :
    Within registries R (SessionM.kick reason) := refl

theorem Within.modifySession {f : Session → Session}
    (step : ∀ h : Hosted, R h { h with session := f h.session }) :
    Within registries R (SessionM.modifySession f) := step

theorem Within.modifyServer {f : Server → Server}
    (step : ∀ h : Hosted, R h { h with server := f h.server }) :
    Within registries R (SessionM.modifyServer f) := step

theorem Within.modifyPlayer {f : Player → Player}
    (step : ∀ h : Hosted,
      R h { h with session := { h.session with player := h.session.player.map f } }) :
    Within registries R (SessionM.modifyPlayer f) := step

theorem run_read (h : Hosted) :
    (read : SessionM (PerState OutboundRegistry)) registries h = (.ok registries, h) := rfl

theorem run_pure (a : α) (h : Hosted) : (pure a : SessionM α) registries h = (.ok a, h) := rfl

theorem run_get (h : Hosted) : (get : SessionM Hosted) registries h = (.ok h, h) := rfl

theorem run_tryModify {f : PerState OutboundRegistry → Session → Except CodecError Session}
    {h : Hosted} {s : Session} (changed : f registries h.session = .ok s) :
    SessionM.tryModify f registries h = (.ok (), { h with session := s }) := by
  simp only [SessionM.tryModify, run_bind, run_read, run_get, changed]
  rfl

theorem run_tryModify_error {f : PerState OutboundRegistry → Session → Except CodecError Session}
    {h : Hosted} {e : CodecError} (refused : f registries h.session = .error e) :
    SessionM.tryModify f registries h = (.error (.codec e), h) := by
  simp only [SessionM.tryModify, run_bind, run_read, run_get, refused]
  rfl

/-- A change that may be refused is made or not. -/
theorem Within.tryModify {f : PerState OutboundRegistry → Session → Except CodecError Session}
    (refl : ∀ h, R h h)
    (step : ∀ (h : Hosted) (s : Session), f registries h.session = .ok s →
      R h { h with session := s }) :
    Within registries R (SessionM.tryModify f) := by
  intro h
  cases changed : f registries h.session with
  | ok s =>
    rw [run_tryModify changed]
    exact step h s changed
  | error e =>
    rw [run_tryModify_error changed]
    exact refl h

end SessionM

namespace Hosted

variable {protocols : Protocols Handler} {R : Hosted → Hosted → Prop}

/-- What the payloads of an open session lead to, with what follows where they fail, a buffer leads
to. -/
theorem consume_steps (refl : ∀ h, R h h) (trans : ∀ {a b c}, R a b → R b c → R a c)
    (handled : ∀ {payload h h'}, h.session.closing = false →
      h.dispatch protocols payload = (.ok (), h') → R h h')
    (failed : ∀ {payload h h' e}, h.session.closing = false →
      h.dispatch protocols payload = (.error e, h') → R h (h'.fail protocols e))
    (invalid : ∀ {h e}, h.session.closing = false → R h (h.fail protocols e)) (h : Hosted)
    (buffer : Bytes) : R h (consume protocols h buffer).2.1 := by
  fun_induction consume protocols h buffer with
  | case1 h | case2 h => exact refl h
  | case3 h buffer isOpen e rest => exact invalid (by simpa using isOpen)
  | case4 h buffer isOpen payload rest frame h' dispatched shorter ih =>
    exact trans (handled (by simpa using isOpen) dispatched) ih
  | case5 h buffer isOpen payload rest frame e h' dispatched =>
    exact failed (by simpa using isOpen) dispatched

/-- What every payload keeps, and every failure, a buffer keeps. -/
theorem consume_within (refl : ∀ h, R h h) (trans : ∀ {a b c}, R a b → R b c → R a c)
    (dispatch : ∀ payload h, R h (h.dispatch protocols payload).2)
    (fail : ∀ h e, R h (h.fail protocols e)) (h : Hosted) (buffer : Bytes) :
    R h (consume protocols h buffer).2.1 := by
  have dispatched {payload : Bytes} {h h' : Hosted} {result : Except Disconnection Unit}
      (done : h.dispatch protocols payload = (result, h')) : R h h' := by
    have first := dispatch payload h
    rwa [done] at first
  exact consume_steps refl trans (fun _ done => dispatched done)
    (fun _ done => trans (dispatched done) (fail _ _)) (fun _ => fail _ _) h buffer

/-- What holds of every session that ends as a refused buffer ended one, and goes back over payloads
that are handled, holds of the session that was given the buffer. -/
theorem of_consume_error {P : Hosted → Prop} {h h' : Hosted} {buffer rest : Bytes}
    {e : Disconnection} (refused : consume protocols h buffer = (.error e, h', rest))
    (invalid : ∀ {h}, h' = h.fail protocols e → P h)
    (failed : ∀ {payload h h₁}, h.dispatch protocols payload = (.error e, h₁) →
      h' = h₁.fail protocols e → P h)
    (handled : ∀ {payload h h₁}, h.dispatch protocols payload = (.ok (), h₁) → P h₁ → P h) :
    P h := by
  fun_induction consume protocols h buffer with
  | case1 | case2 => simp at refused
  | case3 =>
    obtain ⟨rfl, rfl, -⟩ := by simpa only [Prod.mk.injEq, Except.error.injEq] using refused
    exact invalid rfl
  | case4 h buffer isOpen payload rest frame h₁ dispatched shorter ih =>
    exact handled dispatched (ih refused)
  | case5 h buffer isOpen payload rest frame e₁ h₁ dispatched =>
    obtain ⟨rfl, rfl, -⟩ := by simpa only [Prod.mk.injEq, Except.error.injEq] using refused
    exact failed dispatched rfl

end Hosted

end VoxelServer
