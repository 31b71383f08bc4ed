import Mathlib.Data.List.Forall2
import VoxelServer.Proofs.Protocol.Registries
import VoxelServer.Session.Basic

/-!
# Sending step by step

A message is sent in several steps: processors add what they make of it to a list, the messages on
this list are encoded, and each payload goes into a frame and onto the queue. Any of these steps may
be the one that fails, and what the others have done by then would still be there:

* `OutboundRegistry.Produces`, `OutboundRegistry.Encodes`: what a message is sent as;
* `Session.forward`, `Session.announce`: the steps, with what they leave behind when they fail;
* `Session.run_forward`, `Session.run_announce`: they leave nothing behind;
* `sending_is_all_or_nothing`: what is in the queue after a message was sent, or was not.
-/

namespace VoxelServer

/-! ## Lists of computations that may fail -/

theorem mapM_eq_ok_iff {α β ε : Type} {f : α → Except ε β} {xs : List α} {ys : List β} :
    xs.mapM f = .ok ys ↔ List.Forall₂ (fun x y => f x = .ok y) xs ys := by
  induction xs generalizing ys with
  | nil =>
    rw [List.forall₂_nil_left_iff]
    exact ⟨fun h => (Except.ok.inj h).symm, fun h => h ▸ rfl⟩
  | cons x xs ih =>
    rw [List.forall₂_cons_left_iff, List.mapM_cons]
    constructor
    · intro h
      obtain ⟨y, hx, h⟩ := exists_of_bind_ok h
      obtain ⟨rest, hxs, h⟩ := exists_of_bind_ok h
      cases h
      exact ⟨y, rest, hx, ih.mp hxs, rfl⟩
    · rintro ⟨y, rest, hx, hxs, rfl⟩
      rw [hx, ih.mpr hxs]
      rfl

theorem exists_of_mapM_error {α β ε : Type} {f : α → Except ε β} {xs : List α} {e : ε}
    (h : xs.mapM f = .error e) : ∃ x ∈ xs, f x = .error e := by
  induction xs with
  | nil => cases h
  | cons x xs ih =>
    rw [List.mapM_cons] at h
    cases hx : f x with
    | error e' =>
      rw [hx] at h
      obtain rfl : e' = e := Except.error.inj h
      exact ⟨x, List.mem_cons_self, hx⟩
    | ok y =>
      cases hxs : xs.mapM f with
      | error e' =>
        rw [hx, hxs] at h
        obtain rfl : e' = e := Except.error.inj h
        obtain ⟨z, mem, failed⟩ := ih hxs
        exact ⟨z, List.mem_cons_of_mem _ mem, failed⟩
      | ok ys =>
        rw [hx, hxs] at h
        cases h

/-- If all of them succeed, each of them does. -/
theorem exists_of_mem_of_mapM_ok {α β ε : Type} {f : α → Except ε β} {xs : List α} {ys : List β}
    (h : xs.mapM f = .ok ys) {x : α} (mem : x ∈ xs) : ∃ y, f x = .ok y := by
  induction mapM_eq_ok_iff.mp h with
  | nil => cases mem
  | cons here others ih =>
    obtain rfl | mem := List.mem_cons.mp mem
    · exact ⟨_, here⟩
    · exact ih (mapM_eq_ok_iff.mpr others) mem

/-! ## What a message is sent as -/

namespace OutboundRegistry

variable {r : OutboundRegistry} {ctx : CodecContext} {m : Message}

/-- A message is sent as itself, or as what its processors make of it, one after the other. -/
inductive Produces (r : OutboundRegistry) (ctx : CodecContext) (m : Message) : List Message → Prop
  | itself (alone : r.processorsFor m.type = []) : Produces r ctx m [m]
  | made {outputs : List (List Message)} (bound : r.processorsFor m.type ≠ [])
      (each : List.Forall₂ (fun p made => p.process ctx m = .ok made) (r.processorsFor m.type)
        outputs) : Produces r ctx m outputs.flatten

/-- The payload of a message is the opcode it is bound to, and its body. -/
def Encodes (r : OutboundRegistry) (ctx : CodecContext) (m : Message) (payload : Bytes) : Prop :=
  ∃ entry body, r.byType? m.type = some entry ∧ entry.codec.encode ctx m = .ok body ∧
    payload = Wire.encode (VarInt.mk entry.opcode) ++ body

theorem encodePayload_eq_ok_iff {payload : Bytes} :
    r.encodePayload ctx m = .ok payload ↔ r.Encodes ctx m payload := by
  unfold encodePayload Encodes
  cases found : r.byType? m.type with
  | none => simp
  | some entry =>
    cases encoded : entry.codec.encode ctx m with
    | error e => simp [encoded, Bind.bind, Except.bind]
    | ok body => simp [encoded, Bind.bind, Except.bind, Pure.pure, Except.pure, eq_comm]

/-- A message is dropped, or its payloads are those of what it is sent as. -/
theorem encode_cases (r : OutboundRegistry) (ctx : CodecContext) (m : Message) :
    ((∃ p ∈ r.processorsFor m.type, ∃ e, p.process ctx m = .error e) ∧ r.encode ctx m = .ok []) ∨
    ((∀ p ∈ r.processorsFor m.type, ∃ made, p.process ctx m = .ok made) ∧
      ∃ produced, r.Produces ctx m produced ∧
        r.encode ctx m = produced.mapM (r.encodePayload ctx)) := by
  by_cases alone : r.processorsFor m.type = []
  · refine .inr ⟨by simp [alone], [m], .itself alone, ?_⟩
    rw [encode_of_no_processors alone, List.mapM_cons]
    cases r.encodePayload ctx m <;> rfl
  · rw [encode_of_processors alone, process]
    cases processed : (r.processorsFor m.type).mapM (·.process ctx m) with
    | error e =>
      obtain ⟨p, mem, failed⟩ := exists_of_mapM_error processed
      exact .inl ⟨⟨p, mem, e, failed⟩, rfl⟩
    | ok outputs =>
      have each := mapM_eq_ok_iff.mp processed
      exact .inr ⟨fun p => exists_of_mem_of_mapM_ok processed, outputs.flatten,
        .made alone each, rfl⟩

end OutboundRegistry

/-! ## The steps -/

/-- What a processor that fails has made before that. -/
abbrev Early := Processor → CodecContext → Message → List Message

namespace OutboundRegistry

/-- A processor adds what it makes of a message to what there is. -/
def feed (early : Early) (ctx : CodecContext) (m : Message) (p : Processor) :
    StepM (List Message) Unit :=
  match p.process ctx m with
  | .ok made => modify (· ++ made)
  | .error e => do
    modify (· ++ early p ctx m)
    throw e

/-- The processors of a message work one after the other. If one of them fails, what there is by
then is dropped. -/
def encodeSteps (r : OutboundRegistry) (early : Early) (ctx : CodecContext) (m : Message) :
    Except CodecError (List Bytes) :=
  match r.processorsFor m.type with
  | [] => do return [← r.encodePayload ctx m]
  | processors =>
    match forM processors (feed early ctx m) [] with
    | (.ok (), produced) => produced.mapM (r.encodePayload ctx)
    | (.error _, _) => .ok []

/-- Processors that all succeed make what they make of a message one after the other. If one fails,
something is left of it. -/
theorem run_feed (early : Early) (ctx : CodecContext) (m : Message) (processors : List Processor)
    (produced : List Message) :
    match process processors ctx m with
    | .ok made => forM processors (feed early ctx m) produced = (.ok (), produced ++ made)
    | .error e => ∃ rest, forM processors (feed early ctx m) produced = (.error e, rest) := by
  induction processors generalizing produced with
  | nil => exact congrArg _ (List.append_nil produced).symm
  | cons p processors ih =>
    rw [process, List.mapM_cons, List.forM_cons, run_bind_state]
    cases worked : p.process ctx m with
    | error e =>
      have left : feed early ctx m p produced = (.error e, produced ++ early p ctx m) := by
        rw [feed, worked]
        rfl
      rw [left]
      exact ⟨_, rfl⟩
    | ok made =>
      have added : feed early ctx m p produced = (.ok (), produced ++ made) := by
        rw [feed, worked]
        rfl
      have others := ih (produced ++ made)
      rw [added]
      rw [process] at others
      cases more : processors.mapM (·.process ctx m) with
      | error e =>
        rw [more] at others
        exact others
      | ok outputs =>
        rw [more] at others
        exact others.trans (congrArg _ (List.append_assoc produced made outputs.flatten))

/-- Step by step a message has the payloads that it has. -/
theorem encodeSteps_eq (r : OutboundRegistry) (early : Early) (ctx : CodecContext) (m : Message) :
    r.encodeSteps early ctx m = r.encode ctx m := by
  unfold encodeSteps encode
  cases r.processorsFor m.type with
  | nil => rfl
  | cons p processors =>
    have fed := run_feed early ctx m (p :: processors) []
    dsimp only
    cases processed : process (p :: processors) ctx m with
    | ok made =>
      rw [processed] at fed
      rw [fed]
      rfl
    | error e =>
      rw [processed] at fed
      obtain ⟨rest, failed⟩ := fed
      rw [failed]

end OutboundRegistry

namespace Session

/-- Puts a payload into a frame, which always works, and onto the queue. -/
def push (payload : Bytes) : StepM Session Unit :=
  modify fun s => { s with outbound := s.outbound ++ [s.frames.encode payload] }

/-- Sends a message. -/
def forward (registries : PerState OutboundRegistry) (early : Early) (m : Message) :
    StepM Session Unit := do
  let s ← get
  let payloads ← MonadExcept.ofExcept ((registries.get s.state).encodeSteps early s.ctx m)
  forM payloads push

/-- Sends a threshold, and frames all that follows by it. -/
def announce (registries : PerState OutboundRegistry) (early : Early) (threshold : Int32) :
    StepM Session Unit := do
  forward registries early (.setCompression threshold)
  modify fun s => { s with frames := s.frames.setCompression threshold }

theorem run_push (payloads : List Bytes) (s : Session) :
    forM payloads push s = (.ok (), s.queue payloads) := by
  induction payloads generalizing s with
  | nil =>
    rw [queue, List.map_nil, List.append_nil]
    rfl
  | cons payload payloads ih =>
    rw [List.forM_cons, run_bind_state, push, StepM.run_modify]
    dsimp only
    rw [ih, queue, queue, List.map_cons, List.append_assoc, List.singleton_append]

/-- What is there after an operation that may be refused, if a refusal leaves nothing behind. -/
def settle (s : Session) : Except CodecError Session → Except CodecError Unit × Session
  | .ok t => (.ok (), t)
  | .error e => (.error e, s)

/-- A message that cannot be sent leaves nothing behind. -/
theorem run_forward (registries : PerState OutboundRegistry) (early : Early) (m : Message)
    (s : Session) : forward registries early m s = s.settle (s.send registries m) := by
  rw [forward, run_bind_state, StepM.run_get]
  dsimp only
  rw [run_bind_state, StepM.run_ofExcept, OutboundRegistry.encodeSteps_eq, send]
  cases (registries.get s.state).encode s.ctx m with
  | error e => rfl
  | ok payloads => exact run_push payloads s

/-- Nor does a threshold that cannot be announced. -/
theorem run_announce (registries : PerState OutboundRegistry) (early : Early) (threshold : Int32)
    (s : Session) :
    announce registries early threshold s = s.settle (s.setCompression registries threshold) := by
  rw [announce, run_bind_state, run_forward, setCompression]
  cases s.send registries (.setCompression threshold) with
  | error e => rfl
  | ok t => rfl

/-- The threshold follows its announcement. -/
theorem announced_of_announcement (registries : PerState OutboundRegistry) (early : Early)
    (threshold : Int32) (s : Session) :
    (∀ e t, forward registries early (.setCompression threshold) s = (.error e, t) →
      announce registries early threshold s = (.error e, s)) ∧
    ∀ t, forward registries early (.setCompression threshold) s = (.ok (), t) →
      announce registries early threshold s =
        (.ok (), { t with frames := s.frames.setCompression threshold }) := by
  rw [run_forward, run_announce, setCompression]
  cases sent : s.send registries (.setCompression threshold) with
  | error e =>
    constructor
    · intro e' t failed
      cases failed
      rfl
    · intro t said
      cases said
  | ok t =>
    obtain ⟨payloads, -, rfl⟩ := exists_of_map_ok sent
    constructor
    · intro e t failed
      cases failed
    · intro t said
      cases said
      rfl

theorem queue_nil (s : Session) : s.queue [] = s := by
  rw [queue, List.map_nil, List.append_nil]

/-- What becomes of a message. -/
inductive Sent (registries : PerState OutboundRegistry) (s : Session) (m : Message) : Prop
  /-- One of its processors fails. -/
  | dropped {p : Processor} {e : CodecError}
      (bound : p ∈ (registries.get s.state).processorsFor m.type)
      (fails : p.process s.ctx m = .error e) (result : s.send registries m = .ok s)
  /-- All that it is sent as is queued. -/
  | queued {produced : List Message} {payloads : List Bytes}
      (work : ∀ p ∈ (registries.get s.state).processorsFor m.type,
        ∃ made, p.process s.ctx m = .ok made)
      (produces : (registries.get s.state).Produces s.ctx m produced)
      (encodes : List.Forall₂ ((registries.get s.state).Encodes s.ctx) produced payloads)
      (result : s.send registries m = .ok (s.queue payloads))
  /-- Some of what it is sent as has no payload. -/
  | refused {produced : List Message} {out : Message} {e : CodecError}
      (work : ∀ p ∈ (registries.get s.state).processorsFor m.type,
        ∃ made, p.process s.ctx m = .ok made)
      (produces : (registries.get s.state).Produces s.ctx m produced) (mem : out ∈ produced)
      (stuck : ∀ payload, ¬ (registries.get s.state).Encodes s.ctx out payload)
      (result : s.send registries m = .error e)

theorem sent (registries : PerState OutboundRegistry) (s : Session) (m : Message) :
    Sent registries s m := by
  obtain ⟨⟨p, bound, e, fails⟩, encoded⟩ | ⟨work, produced, produces, encoded⟩ :=
    (registries.get s.state).encode_cases s.ctx m
  · refine .dropped bound fails ?_
    rw [send, encoded]
    exact congrArg _ s.queue_nil
  · cases done : produced.mapM ((registries.get s.state).encodePayload s.ctx) with
    | ok payloads =>
      have each := (mapM_eq_ok_iff.mp done).imp fun _ _ =>
        OutboundRegistry.encodePayload_eq_ok_iff.mp
      refine .queued work produces each ?_
      rw [send, encoded, done]
      rfl
    | error e =>
      obtain ⟨out, mem, refused⟩ := exists_of_mapM_error done
      refine .refused work produces mem ?_ (e := e) ?_
      · intro payload encodes
        rw [OutboundRegistry.encodePayload_eq_ok_iff.mpr encodes] at refused
        cases refused
      · rw [send, encoded, done]
        rfl

end Session

/-- **Sending is all or nothing and keeps order.** A message that cannot be sent leaves the session
as it was, and so does one with a processor that fails, whatever it or others have made by then.
Otherwise the frames of all that the message is sent as come behind those that wait, in order. A
threshold is set once it is announced, and if it cannot be announced nothing has changed. -/
theorem sending_is_all_or_nothing (registries : PerState OutboundRegistry) (early : Early)
    (s : Session) (m : Message) (threshold : Int32) :
    let r := registries.get s.state
    let sent := Session.forward registries early m s
    let announcement := Session.forward registries early (.setCompression threshold) s
    let announced := Session.announce registries early threshold s
    sent = s.settle (s.send registries m) ∧
    (∀ e t, sent = (.error e, t) → t = s ∧
      ∃ produced, r.Produces s.ctx m produced ∧
        ∃ out ∈ produced, ∀ payload, ¬ r.Encodes s.ctx out payload) ∧
    ((∃ p ∈ r.processorsFor m.type, ∃ e, p.process s.ctx m = .error e) → sent = (.ok (), s)) ∧
    ((∀ p ∈ r.processorsFor m.type, ∃ made, p.process s.ctx m = .ok made) →
      ∀ t, sent = (.ok (), t) →
        ∃ produced payloads, r.Produces s.ctx m produced ∧
          List.Forall₂ (r.Encodes s.ctx) produced payloads ∧
          t = { s with outbound := s.outbound ++ payloads.map s.frames.encode }) ∧
    announced = s.settle (s.setCompression registries threshold) ∧
    (∀ e t, announcement = (.error e, t) → announced = (.error e, s)) ∧
    (∀ t, announcement = (.ok (), t) →
      announced = (.ok (), { t with frames := s.frames.setCompression threshold })) := by
  intro r sent announcement announced
  have settled : sent = s.settle (s.send registries m) := Session.run_forward registries early m s
  obtain ⟨refused, agreed⟩ := Session.announced_of_announcement registries early threshold s
  refine ⟨settled, ?_, ?_, ?_, Session.run_announce registries early threshold s, refused, agreed⟩
  · intro e t failed
    rw [settled] at failed
    cases s.sent registries m with
    | dropped _ _ result | queued _ _ _ result =>
      rw [result] at failed
      cases failed
    | refused _ produces mem stuck result =>
      rw [result] at failed
      cases failed
      exact ⟨rfl, _, produces, _, mem, stuck⟩
  · rintro ⟨p, bound, e, fails⟩
    cases s.sent registries m with
    | dropped _ _ result =>
      rw [settled, result]
      rfl
    | queued work | refused work =>
      obtain ⟨made, works⟩ := work p bound
      rw [fails] at works
      cases works
  · intro work t done
    rw [settled] at done
    cases s.sent registries m with
    | dropped bound fails =>
      obtain ⟨made, works⟩ := work _ bound
      rw [fails] at works
      cases works
    | queued _ produces encodes result =>
      rw [result] at done
      cases done
      exact ⟨_, _, produces, encodes, rfl⟩
    | refused _ _ _ _ result =>
      rw [result] at done
      cases done

/-- Keep-alives have an opcode here, and thresholds have none. A threshold is sent as a keep-alive
and as itself. -/
def OutboundRegistry.lopsided : OutboundRegistry where
  state := .login
  direction := .outbound
  opcodes := [(31, 0)]
  types := [(.keepAlive, 0)]
  entries := [⟨31, .ofType .keepAlive, none⟩]
  pipelines := [(.setCompression, [⟨.setCompression, false, fun _ m => .ok [.keepAlive 1, m]⟩])]

theorem half_an_announcement_is_not_queued :
    Session.announce (.of fun _ => .lopsided) (fun _ _ _ => []) 256 (.start {} Zlib.deflate) =
      (.error (.unregistered .setCompression .login), .start {} Zlib.deflate) := by
  obtain ⟨-, -, -, -, -, refused, -⟩ := sending_is_all_or_nothing (.of fun _ => .lopsided)
    (fun _ _ _ => []) (.start {} Zlib.deflate) (.keepAlive 1) 256
  exact refused _ (.start {} Zlib.deflate) rfl

end VoxelServer
