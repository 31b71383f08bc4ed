import VoxelServer.Proofs.Protocol.Opcodes
import VoxelServer.Session.Basic

/-!
# Broadcasts and single messages

A broadcast that is encoded once must give each recipient what sending to it alone would have
given. What makes this true is that nothing that claims to look the same to everyone looks at the
connection:

* `OutboundRegistry.ContextFree`: this condition, which the registries of the game meet;
* `OutboundRegistry.encode_of_prepare`: a cached broadcast holds the payloads of every connection;
* `OutboundRegistry.silent_of_prepare_error`: what cannot be broadcast sends nothing either;
* `broadcast_like_sending`: so it makes no difference to a player how a message was sent.
-/

namespace VoxelServer

namespace OutboundRegistry

/-- What is marked as the same for every recipient does not depend on the connection. -/
structure ContextFree (r : OutboundRegistry) : Prop where
  codec : ∀ entry ∈ r.entries, entry.codec.caching = true →
    ∀ (ctx ctx' : CodecContext) (m : Message), entry.codec.encode ctx m = entry.codec.encode ctx' m
  processor : ∀ p ∈ r.processors, p.caching = true →
    ∀ (ctx ctx' : CodecContext) (m : Message), p.process ctx m = p.process ctx' m

variable {r : OutboundRegistry} {m : Message} {ctx : CodecContext}

theorem mem_of_byType? {type : MessageType} {entry : Registry.Entry Unit}
    (found : r.byType? type = some entry) : entry ∈ r.entries := by
  obtain ⟨i, -, inside⟩ := Option.bind_eq_some_iff.mp found
  exact List.mem_of_getElem? inside

theorem encodePayload_congr (free : r.ContextFree) (caching : r.isCaching m.type = true)
    (ctx ctx' : CodecContext) : r.encodePayload ctx m = r.encodePayload ctx' m := by
  unfold encodePayload
  unfold Registry.isCaching at caching
  cases found : r.byType? m.type with
  | none => rfl
  | some entry =>
    rw [found] at caching
    dsimp only
    rw [free.codec entry (mem_of_byType? found) caching ctx ctx' m]

theorem mapM_encodePayload_congr (free : r.ContextFree) {produced : List Message}
    (caching : (produced.all fun out => r.isCaching out.type) = true) (ctx ctx' : CodecContext) :
    produced.mapM (r.encodePayload ctx) = produced.mapM (r.encodePayload ctx') :=
  mapM_congr_of_mem fun out mem =>
    encodePayload_congr free (List.all_eq_true.mp caching out mem) ctx ctx'

theorem process_congr (free : r.ContextFree) {type : MessageType}
    (caching : (r.processorsFor type).all (·.caching) = true) (ctx ctx' : CodecContext)
    (m : Message) :
    process (r.processorsFor type) ctx m = process (r.processorsFor type) ctx' m := by
  have same : (r.processorsFor type).mapM (·.process ctx m) =
      (r.processorsFor type).mapM (·.process ctx' m) :=
    mapM_congr_of_mem fun p mem =>
      free.processor p (processorsFor_bound r type p mem) (List.all_eq_true.mp caching p mem)
        ctx ctx' m
  rw [process, process, same]

/-- A cached broadcast holds the payloads that every connection would have got. -/
theorem encode_of_prepare (free : r.ContextFree) {state : ProtocolState} {payloads : List Bytes}
    (cached : r.prepare m = .ok (.cached state payloads)) (ctx : CodecContext) :
    state = r.state ∧ r.encode ctx m = .ok payloads := by
  cases r.prepared m with
  | perConnection same =>
    rw [same] at cached
    cases cached
  | plain bound caching same =>
    obtain ⟨payload, encoded, single⟩ := exists_of_map_ok (same.symm.trans cached)
    cases single
    rw [encode_of_no_processors bound, encodePayload_congr free caching ctx {}, encoded]
    exact ⟨rfl, rfl⟩
  | dropped bound caching processed same =>
    rw [same] at cached
    cases cached
  | made bound caching processed alike same =>
    obtain ⟨all, encoded, listed⟩ := exists_of_map_ok (same.symm.trans cached)
    cases listed
    rw [encode_of_processors bound, process_congr free caching ctx {}, processed]
    exact ⟨rfl, (mapM_encodePayload_congr free alike ctx {}).trans encoded⟩

/-- A broadcast that is not cached carries the message. -/
theorem eq_of_prepare {state : ProtocolState} {carried : Message}
    (single : r.prepare m = .ok (.perConnection state carried)) :
    state = r.state ∧ carried = m := by
  cases r.prepared m with
  | perConnection same =>
    rw [same] at single
    cases single
    exact ⟨rfl, rfl⟩
  | plain _ _ same =>
    obtain ⟨_, _, cached⟩ := exists_of_map_ok (same.symm.trans single)
    cases cached
  | dropped _ _ _ same =>
    rw [same] at single
    cases single
  | made _ _ _ _ same =>
    obtain ⟨_, _, cached⟩ := exists_of_map_ok (same.symm.trans single)
    cases cached

/-- What cannot be broadcast sends nothing to a single connection either: a processor that fails
drops the message, and a payload that cannot be encoded is an error. -/
theorem silent_of_prepare_error (free : r.ContextFree) {e : CodecError}
    (failed : r.prepare m = .error e) (ctx : CodecContext) :
    r.encode ctx m = .ok [] ∨ r.encode ctx m = .error e := by
  cases r.prepared m with
  | perConnection same =>
    rw [same] at failed
    cases failed
  | plain bound caching same =>
    have unencoded := error_of_map_error (same.symm.trans failed)
    rw [encode_of_no_processors bound, encodePayload_congr free caching ctx {}, unencoded]
    exact .inr rfl
  | dropped bound caching processed same =>
    rw [encode_of_processors bound, process_congr free caching ctx {}, processed]
    exact .inl rfl
  | made bound caching processed alike same =>
    have unencoded := error_of_map_error (same.symm.trans failed)
    rw [encode_of_processors bound, process_congr free caching ctx {}, processed]
    exact .inr ((mapM_encodePayload_congr free alike ctx {}).trans unencoded)

end OutboundRegistry

/-- Nothing of the game looks at the connection, marked or not. -/
theorem contextFree_game (state : ProtocolState) : (gameOutbound.get state).ContextFree where
  codec entry bound _ ctx ctx' m := by
    rw [(gameOutbound_grown state).entries] at bound
    obtain ⟨row, -, rfl⟩ := List.mem_map.mp bound
    rfl
  processor p bound _ ctx ctx' m := by
    have bound := mem_processors_game bound
    cases state with
    | play =>
      simp only [ProtocolState.processors, List.mem_cons, List.not_mem_nil, or_false] at bound
      obtain rfl | rfl := bound <;> rfl
    | handshake | status | login => cases bound

/-- **A broadcast is sent like a message.** For any message and any player, a broadcast that was
encoded once queues the frames that sending the message queues, and neither fails; one that was
not carries the message; and where preparing fails, sending queues nothing. Sessions in other
states get nothing of a cached broadcast. Cached payloads are those of every connection for any
registries in which what is marked as the same for everyone does not look at the connection. -/
theorem broadcast_like_sending (m : Message) (s : Session) :
    (s.state = .play →
      match (gameOutbound.get .play).prepare m with
      | .ok (.cached state payloads) =>
        s.send gameOutbound m = .ok (s.sendCached state payloads) ∧
          s.sendCached state payloads = s.queue payloads
      | .ok (.perConnection state carried) => state = .play ∧ carried = m
      | .error _ => ∀ t, s.send gameOutbound m = .ok t → t.outbound = s.outbound) ∧
    (s.state ≠ .play → ∀ state payloads,
      (gameOutbound.get .play).prepare m = .ok (.cached state payloads) →
        s.sendCached state payloads = s) ∧
    ∀ (r : OutboundRegistry) (state : ProtocolState) (payloads : List Bytes), r.ContextFree →
      r.prepare m = .ok (.cached state payloads) → ∀ ctx, r.encode ctx m = .ok payloads := by
  have free := contextFree_game .play
  refine ⟨fun playing => ?_, fun away state payloads prepared => ?_,
    fun r state payloads free prepared ctx => (OutboundRegistry.encode_of_prepare free prepared ctx).2⟩
  · cases prepared : (gameOutbound.get .play).prepare m with
    | error e =>
      intro t sent
      rw [Session.send, playing] at sent
      obtain ⟨payloads, encoded, rfl⟩ := exists_of_map_ok sent
      obtain silent | refused := OutboundRegistry.silent_of_prepare_error free prepared s.ctx
      · rw [silent] at encoded
        cases encoded
        exact List.append_nil _
      · rw [refused] at encoded
        cases encoded
    | ok b =>
      cases b with
      | cached state payloads =>
        obtain ⟨rfl, encoded⟩ := OutboundRegistry.encode_of_prepare free prepared s.ctx
        have queued : s.sendCached (gameOutbound.get .play).state payloads = s.queue payloads :=
          if_pos ((state_game .play).trans playing.symm)
        refine ⟨?_, queued⟩
        rw [queued, Session.send, playing, encoded]
        rfl
      | perConnection state carried =>
        obtain ⟨same, carries⟩ := OutboundRegistry.eq_of_prepare prepared
        exact ⟨same.trans (state_game .play), carries⟩
  · obtain ⟨rfl, -⟩ := OutboundRegistry.encode_of_prepare free prepared {}
    rw [state_game]
    exact if_neg fun same => away same.symm

/-- A chat message that was encoded for everyone is what a modded player is sent. -/
theorem chat_broadcast_like_sending :
    let m : Message := .chatMessage ⟨"\x7b\x7d", .chat⟩
    let s : Session := { Session.start {} Zlib.deflate with state := .play, ctx := ⟨210, true⟩ }
    (gameOutbound.get .play).prepare m = .ok (.cached .play [[15, 2, 123, 125, 0]]) ∧
      s.send gameOutbound m = .ok (s.queue [[15, 2, 123, 125, 0]]) ∧
      (gameOutbound.get .play).encode s.ctx m = .ok [[15, 2, 123, 125, 0]] := by
  intro m s
  have bytes : Wire.encode (VarInt.mk 15) ++ Wire.encode ("\x7b\x7d", (0 : UInt8)) =
      [15, 2, 123, 125, 0] := by decide +kernel
  have cached : (gameOutbound.get .play).prepare m = .ok (.cached .play [[15, 2, 123, 125, 0]]) := by
    have bound : (15, .chatMessage) ∈ ProtocolState.play.outboundTable := by decide
    have alone : ∀ p ∈ ProtocolState.play.processors, p.type ≠ .chatMessage := by decide
    rw [← bytes, prepare_row alone bound rfl rfl]
    rfl
  obtain ⟨playing, -, general⟩ := broadcast_like_sending m s
  have sent := playing rfl
  rw [cached] at sent
  exact ⟨cached, sent.1.trans (congrArg _ sent.2), general _ _ _ (contextFree_game .play) cached _⟩

end VoxelServer
