import VoxelServer.Proofs.Frame.Reader
import VoxelServer.Proofs.Protocol.Registries
import VoxelServer.Proofs.Protocol.Tables

/-!
# Opcodes of what is sent

A client tells the payload that announces a threshold from all others by its first byte:

* `Opens`, `Opens.unique`, `encode_opens`: the one kind of message that a payload opens as;
* `encode_plain`: whatever another message is sent as, no payload of it starts like that one;
* `encode_setCompression`: only a login has a payload for the announcement.
-/

namespace VoxelServer

/-! ## Payloads and their opcodes -/

/-- A payload that announces no threshold. -/
def Plain (payload : Bytes) : Prop := payload.head? ≠ some compressionOpcode

/-- A payload that opens with the opcode that a state has for a type. -/
def Opens (state : ProtocolState) (type : MessageType) (payload : Bytes) : Prop :=
  ∃ opcode body, (opcode, type) ∈ state.outboundTable ∧
    payload = Wire.encode (VarInt.mk opcode) ++ body

/-- A type whose messages neither set a threshold nor end a session. -/
structure MessageType.Ordinary (type : MessageType) : Prop where
  announces : type ≠ .setCompression
  ends : type ≠ .disconnect

/-- All opcodes are single bytes. -/
theorem Opens.head {state : ProtocolState} {type : MessageType} {payload : Bytes}
    (opens : Opens state type payload) : ∃ opcode, (opcode, type) ∈ state.outboundTable ∧
      payload.head? = some (UInt8.ofNat opcode.toUInt32.toNat) := by
  have small : ∀ state : ProtocolState, ∀ entry ∈ state.outboundTable,
      entry.1.toUInt32.toNat < 128 := by
    intro state
    cases state <;> decide
  obtain ⟨opcode, body, bound, rfl⟩ := opens
  refine ⟨opcode, bound, ?_⟩
  show (encodeVarNum opcode.toUInt32.toNat ++ body).head? = _
  rw [encodeVarNum, if_pos (small state _ bound)]
  rfl

/-- In one state a payload opens as one kind of message. -/
theorem Opens.unique {state : ProtocolState} {type type' : MessageType} {payload : Bytes}
    (opens : Opens state type payload) (opens' : Opens state type' payload) : type = type' := by
  have table : ∀ state : ProtocolState, ∀ entry ∈ state.outboundTable,
      ∀ entry' ∈ state.outboundTable,
        UInt8.ofNat entry.1.toUInt32.toNat = UInt8.ofNat entry'.1.toUInt32.toNat →
          entry.2 = entry'.2 := by
    intro state
    cases state <;> decide
  obtain ⟨opcode, bound, first⟩ := opens.head
  obtain ⟨opcode', bound', first'⟩ := opens'.head
  exact table state _ bound _ bound' (Option.some.inj (first.symm.trans first'))

theorem Opens.plain {state : ProtocolState} {type : MessageType} {payload : Bytes}
    (opens : Opens state type payload) (other : type ≠ .setCompression) : Plain payload := by
  have table : ∀ state : ProtocolState, ∀ entry ∈ state.outboundTable,
      entry.2 ≠ .setCompression →
        UInt8.ofNat entry.1.toUInt32.toNat ≠ compressionOpcode := by
    intro state
    cases state <;> decide
  obtain ⟨opcode, bound, first⟩ := opens.head
  rw [Plain, first]
  exact fun same => table state _ bound other (Option.some.inj same)

theorem encodePayload_opens {state : ProtocolState} {ctx : CodecContext} {m : Message}
    {payload : Bytes} (encoded : (gameOutbound.get state).encodePayload ctx m = .ok payload) :
    Opens state m.type payload := by
  unfold OutboundRegistry.encodePayload at encoded
  split at encoded
  · cases encoded
  · rename_i entry found
    obtain ⟨body, -, written⟩ := exists_of_bind_ok encoded
    cases written
    obtain ⟨row, bound, type, rfl⟩ := row_of_gameOutbound found
    exact ⟨row.1, body, type ▸ bound, rfl⟩

/-- The processors of the game make ordinary messages. -/
theorem process_ordinary {state : ProtocolState} {p : Processor} {ctx : CodecContext}
    {m out : Message} {produced : List Message} (bound : p ∈ (gameOutbound.get state).processors)
    (made : p.process ctx m = .ok produced) (mem : out ∈ produced) : out.type.Ordinary := by
  have known : p = .particles ∨ p = .registries := by
    have listed := mem_processors_game bound
    cases state <;> simp_all [ProtocolState.processors]
  obtain rfl | rfl := known
  · cases m with
    | particleEffect effect =>
      obtain ⟨packets, -, rfl⟩ := exists_of_map_ok made
      obtain ⟨packet, -, rfl⟩ := List.mem_map.mp mem
      constructor <;> simp [Message.type]
    | _ => simp [Processor.particles] at made
  · cases m with
    | registryData entries =>
      obtain ⟨payloads, -, rfl⟩ := exists_of_map_ok made
      obtain ⟨payload, -, rfl⟩ := List.mem_map.mp mem
      constructor <;> simp [Message.type]
    | _ => simp [Processor.registries] at made

theorem processed_ordinary {state : ProtocolState} {processors : List Processor}
    {ctx : CodecContext} {m out : Message} {produced : List Message}
    (bound : ∀ p ∈ processors, p ∈ (gameOutbound.get state).processors)
    (processed : OutboundRegistry.process processors ctx m = .ok produced) (mem : out ∈ produced) :
    out.type.Ordinary := by
  obtain ⟨lists, made, rfl⟩ := exists_of_map_ok processed
  obtain ⟨list, inLists, mem⟩ := List.mem_flatten.mp mem
  obtain ⟨p, hp, madeBy⟩ := mem_of_mapM_ok made inLists
  exact process_ordinary (bound p hp) madeBy mem

/-- What a message is sent as opens with its opcode, or with that of an ordinary message. -/
theorem encode_opens {state : ProtocolState} {ctx : CodecContext} {m : Message}
    {payloads : List Bytes} (encoded : (gameOutbound.get state).encode ctx m = .ok payloads) :
    ∀ p ∈ payloads, ∃ type, Opens state type p ∧ (type = m.type ∨ type.Ordinary) := by
  intro payload hp
  by_cases alone : (gameOutbound.get state).processorsFor m.type = []
  · rw [OutboundRegistry.encode_of_no_processors alone] at encoded
    obtain ⟨bytes, single, rfl⟩ := exists_of_map_ok encoded
    rw [List.mem_singleton.mp hp]
    exact ⟨m.type, encodePayload_opens single, .inl rfl⟩
  · rw [OutboundRegistry.encode_of_processors alone] at encoded
    split at encoded
    · rename_i produced processed
      obtain ⟨out, hout, payloadOf⟩ := mem_of_mapM_ok encoded hp
      have made := processed_ordinary (OutboundRegistry.processorsFor_bound _ _) processed hout
      exact ⟨out.type, encodePayload_opens payloadOf, .inr made⟩
    · cases encoded
      cases hp

theorem encode_plain {state : ProtocolState} {ctx : CodecContext} {m : Message}
    {payloads : List Bytes} (encoded : (gameOutbound.get state).encode ctx m = .ok payloads)
    (other : m.type ≠ .setCompression) : ∀ p ∈ payloads, Plain p := by
  intro payload hp
  obtain ⟨type, opens, rfl | made⟩ := encode_opens encoded payload hp
  · exact opens.plain other
  · exact opens.plain made.announces

/-- A broadcast carries plain payloads or the message itself. -/
theorem prepare_plain {state : ProtocolState} {m : Message} {b : Broadcast}
    (prepared : (gameOutbound.get state).prepare m = .ok b) (other : m.type ≠ .setCompression) :
    match b with
    | .cached _ payloads => ∀ p ∈ payloads, Plain p
    | .perConnection _ carried => carried = m := by
  cases (gameOutbound.get state).prepared m with
  | perConnection same =>
    cases same.symm.trans prepared
    rfl
  | plain _ _ same =>
    obtain ⟨bytes, single, rfl⟩ := exists_of_map_ok (same.symm.trans prepared)
    intro payload hp
    rw [List.mem_singleton.mp hp]
    exact (encodePayload_opens single).plain other
  | dropped _ _ _ same => cases same.symm.trans prepared
  | made _ _ processed _ same =>
    obtain ⟨payloads, encoded, rfl⟩ := exists_of_map_ok (same.symm.trans prepared)
    intro payload hp
    obtain ⟨out, hout, payloadOf⟩ := mem_of_mapM_ok encoded hp
    exact (encodePayload_opens payloadOf).plain
      (processed_ordinary (OutboundRegistry.processorsFor_bound _ _) processed hout).announces

/-! ## Messages without processors -/

/-- A message of the table has its opcode and its body for a payload. -/
theorem encodePayload_row {state : ProtocolState} {m : Message} {row : Int32 × MessageType}
    (bound : row ∈ state.outboundTable) (type : row.2 = m.type) (ctx : CodecContext) :
    (gameOutbound.get state).encodePayload ctx m =
      (Wire.encode (VarInt.mk row.1) ++ ·) <$> m.encodeBody := by
  have entry := gameOutbound_byType? bound
  rw [type] at entry
  rw [OutboundRegistry.encodePayload, entry]
  show (m.encodeBody >>= _) = _
  cases m.encodeBody <;> rfl

section Alone

variable {state : ProtocolState} {m : Message}
  (alone : ∀ p ∈ state.processors, p.type ≠ m.type) (ctx : CodecContext)

include alone

theorem processorsFor_alone : (gameOutbound.get state).processorsFor m.type = [] := by
  rw [gameOutbound_processorsFor, List.filter_eq_nil_iff]
  intro p mem
  simpa using alone p mem

theorem encode_row {row : Int32 × MessageType} (bound : row ∈ state.outboundTable)
    (type : row.2 = m.type) :
    (gameOutbound.get state).encode ctx m =
      (fun body => [Wire.encode (VarInt.mk row.1) ++ body]) <$> m.encodeBody := by
  rw [OutboundRegistry.encode_of_no_processors (processorsFor_alone alone),
    encodePayload_row bound type]
  cases m.encodeBody <;> rfl

theorem encode_of_body {row : Int32 × MessageType} (bound : row ∈ state.outboundTable)
    (type : row.2 = m.type) {body : Bytes} (written : m.encodeBody = .ok body) :
    (gameOutbound.get state).encode ctx m = .ok [Wire.encode (VarInt.mk row.1) ++ body] := by
  rw [encode_row alone ctx bound type, written]
  rfl

/-- A message of the table that looks the same to everyone is broadcast as its payload. -/
theorem prepare_row {row : Int32 × MessageType} (bound : row ∈ state.outboundTable)
    (type : row.2 = m.type) (caching : m.type.isCaching = true) :
    (gameOutbound.get state).prepare m =
      (fun body => .cached state [Wire.encode (VarInt.mk row.1) ++ body]) <$> m.encodeBody := by
  have entry := gameOutbound_byType? bound
  rw [type] at entry
  have plain := processorsFor_alone alone
  have same : (gameOutbound.get state).isCacheable m.type = true := by
    simp only [OutboundRegistry.isCacheable, plain, Registry.isCaching, entry]
    rw [← type] at caching
    exact caching
  simp only [OutboundRegistry.prepare, same, plain, encodePayload_row bound type, state_game]
  cases m.encodeBody <;> rfl

/-- A message that is not in the table is not sent. -/
theorem encode_unregistered (missing : ∀ row ∈ state.outboundTable, row.2 ≠ m.type) :
    (gameOutbound.get state).encode ctx m = .error (.unregistered m.type state) := by
  have nothing : (gameOutbound.get state).byType? m.type = none := by
    cases found : (gameOutbound.get state).byType? m.type with
    | none => rfl
    | some entry =>
      obtain ⟨row, bound, type, -⟩ := row_of_gameOutbound found
      exact absurd type (missing row bound)
  rw [OutboundRegistry.encode_of_no_processors (processorsFor_alone alone),
    OutboundRegistry.encodePayload, nothing, (gameOutbound_grown state).state]
  rfl

/-- What is sent stands in the table. -/
theorem row_of_encode {payloads : List Bytes}
    (encoded : (gameOutbound.get state).encode ctx m = .ok payloads) :
    ∃ row ∈ state.outboundTable, row.2 = m.type := by
  by_cases bound : ∃ row ∈ state.outboundTable, row.2 = m.type
  · exact bound
  · have missing : ∀ row ∈ state.outboundTable, row.2 ≠ m.type :=
      fun row mem type => bound ⟨row, mem, type⟩
    rw [encode_unregistered alone ctx missing] at encoded
    cases encoded

end Alone

/-- A message of the table is sent if it can be written. -/
theorem exists_encode {state : ProtocolState} {m : Message} (type : MessageType)
    (same : m.type = type) (alone : ∀ p ∈ state.processors, p.type ≠ type)
    (known : ∃ row ∈ state.outboundTable, row.2 = type) {body : Bytes}
    (written : m.encodeBody = .ok body) (ctx : CodecContext) :
    ∃ payload, (gameOutbound.get state).encode ctx m = .ok [payload] := by
  subst same
  obtain ⟨row, bound, type⟩ := known
  exact ⟨_, encode_of_body alone ctx bound type written⟩

/-- A login announces a threshold. -/
theorem encode_announcement (ctx : CodecContext) (threshold : Int32) :
    (gameOutbound.get .login).encode ctx (.setCompression threshold) =
      .ok [FrameCodec.announcement threshold] := by
  have opcode : Wire.encode (VarInt.mk 3) = [compressionOpcode] := by
    show encodeVarNum 3 = _
    rw [encodeVarNum]
    rfl
  have bound : (3, .setCompression) ∈ ProtocolState.login.outboundTable := by decide
  have alone : ∀ p ∈ ProtocolState.login.processors, p.type ≠ .setCompression := by decide
  rw [encode_of_body alone ctx bound rfl rfl, opcode]
  rfl

/-- Only a login has a payload for the announcement. -/
theorem encode_setCompression {state : ProtocolState} {ctx : CodecContext} {threshold : Int32}
    {payloads : List Bytes}
    (encoded : (gameOutbound.get state).encode ctx (.setCompression threshold) = .ok payloads) :
    payloads = [FrameCodec.announcement threshold] := by
  have alone : ∀ p ∈ state.processors, p.type ≠ .setCompression := by cases state <;> decide
  have known : ∃ row ∈ state.outboundTable, row.2 = .setCompression :=
    row_of_encode alone ctx encoded
  obtain rfl : state = .login := by
    cases state with
    | login => rfl
    | handshake | status | play => exact absurd known (by decide)
  rw [encode_announcement] at encoded
  exact (Except.ok.inj encoded).symm

end VoxelServer
