import VoxelServer.Message.Codec
import VoxelServer.Proofs.Computations

/-!
# Writing field by field

A message is written into a buffer that already has its opcode in it. Its fields come one after the
other, and what is written by the time a codec fails would be sent with the next message:

* `Message.write`: the fields of a message, each behind what there is;
* `Message.run_write`: all of them are written, or none.
-/

namespace VoxelServer

/-- Writes behind what there is. -/
def put {α : Type} [Wire α] (a : α) : StepM Bytes Unit := modify (· ++ Wire.encode a)

theorem run_put {α : Type} [Wire α] (a : α) (buffer : Bytes) :
    put a buffer = (.ok (), buffer ++ Wire.encode a) := rfl

theorem run_forM_put {α β : Type} [Wire β] (f : α → β) (as : List α) (buffer : Bytes) :
    forM as (fun a => put (f a)) buffer =
      (.ok (), buffer ++ as.flatMap fun a => Wire.encode (f a)) := by
  induction as generalizing buffer with
  | nil => exact congrArg _ (List.append_nil buffer).symm
  | cons a as ih =>
    rw [List.forM_cons, run_bind_state, run_put]
    dsimp only
    rw [ih, List.flatMap_cons, List.append_assoc]

namespace Message

/-- Writes a message, up to the first thing that is wrong with it. -/
def write : Message → StepM Bytes Unit
  | statusResponse json => put json
  | ping payload => put payload
  | loginSuccess uuid name => do
    put uuid.hyphenated
    put name
  | setCompression threshold => put (VarInt.mk threshold)
  | spawnParticle m => do
    put m.particleId
    put m.longDistance
    put m.position
    put m.offset
    put m.data
    put m.count
    forM m.extra fun n => put (VarInt.mk n)
  | keepAlive id => put (VarInt.mk id)
  | confirmTransaction m => do
    put m.windowId
    put m.action
    put m.accepted
  | closeWindow windowId => put windowId
  | channelPayload m => do
    if m.data.length > maxSentPayloadLength then
      throw (.tooLong m.data.length maxSentPayloadLength)
    put m.channel
    modify (· ++ m.data)
  | blockBreakAnimation m => do
    put (VarInt.mk m.entityId)
    put (BlockPosition.mk m.position)
    put (crackStage m.stage)
  | chatMessage m => do
    put m.json
    put m.kind.netId
  | setSlot m => do
    put m.windowId
    put m.slot
    put (WireSlot.mk m.item)
  | joinGame m => do
    put m.entityId
    put m.gameMode.netId
    put m.dimension
    put m.difficulty
    put m.maxPlayers
    put m.levelType
    put m.reducedDebugInfo
  | playerPositionAndLook m => do
    put m.position
    put m.look
    put m.flags
    put (VarInt.mk m.teleportId)
  | entityEffect m => do
    put (VarInt.mk m.entityId)
    put m.effectId
    put m.amplifier
    put (VarInt.mk m.duration)
    put m.flags
  | disconnect reason => put reason
  | particleEffect _ => throw (.invalid (.noCodec .particleEffect))
  | registryData _ => throw (.invalid (.noCodec .registryData))
  | m => throw (.invalid (.neverSent m.type))

theorem encode_pair {α β : Type} [Wire α] [Wire β] (p : α × β) :
    Wire.encode p = Wire.encode p.1 ++ Wire.encode p.2 := rfl

theorem run_throw (e : CodecError) (buffer : Bytes) :
    (throw e : StepM Bytes Unit) buffer = (.error e, buffer) := rfl

/-- A message that cannot be written leaves the buffer as it is. Any other has its body written
behind what there is. -/
theorem run_write (m : Message) (buffer : Bytes) :
    m.write buffer = match m.encodeBody with
      | .ok body => (.ok (), buffer ++ body)
      | .error e => (.error e, buffer) := by
  cases m with
  | channelPayload m =>
    by_cases long : m.data.length > maxSentPayloadLength
    · simp only [write, encodeBody, if_pos long, run_bind_state, run_throw]
    · simp only [write, encodeBody, if_neg long, run_bind_state, run_put, StepM.run_modify,
        List.append_assoc]
  | spawnParticle m =>
    simp only [write, encodeBody, run_bind_state, run_put, run_forM_put, encode_pair,
      List.append_assoc]
    rfl
  | _ =>
    simp only [write, encodeBody, varInt, run_bind_state, run_put, run_throw, encode_pair,
      List.append_assoc]

end Message

end VoxelServer
