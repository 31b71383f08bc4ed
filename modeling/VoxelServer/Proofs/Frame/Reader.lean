import VoxelServer.Proofs.Frame.RoundTrip
import VoxelServer.Session.Client

/-!
# Reading a stream of frames

A client takes frame after frame off the stream and follows what they announce. A writer that
changes its framing exactly where it announced the change is read without loss:

* `Framing.frameAll`: the frames of such a writer;
* `FrameCodec.readStream`: the client;
* `FrameCodec.readStream_frameAll`: the client gets the payloads, and no byte is left over, whatever
  compressed them.
-/

namespace VoxelServer

namespace Framing

/-- How the frames after a payload are written, if it announces a threshold. -/
def following (framing : Framing) (payload : Bytes) : Framing :=
  { framing with toFrameCodec := framing.toFrameCodec.following payload }

/-- Frames payloads one after the other, each the way those before it say. Also gives how the next
one is framed. -/
def frameAll (framing : Framing) : List Bytes → List Bytes × Framing
  | [] => ([], framing)
  | payload :: payloads =>
    let (frames, next) := (framing.following payload).frameAll payloads
    (framing.encode payload :: frames, next)

end Framing

namespace FrameCodec

/-- Takes whole frames off the front of a stream, each the way those before it say. Also gives how
the next one is read, and what is left of the stream. -/
def readStream (codec : FrameCodec) (stream : Bytes) : List Bytes × FrameCodec × Bytes :=
  match decoded : codec.decode stream with
  | .frame payload rest =>
    have := length_rest_of_frame decoded
    let (payloads, next, left) := (codec.following payload).readStream rest
    (payload :: payloads, next, left)
  | _ => ([], codec, stream)
termination_by stream.length

/-! ## Following announcements -/

@[simp] theorem maxLength_following (codec : FrameCodec) (payload : Bytes) :
    (codec.following payload).maxLength = codec.maxLength := by
  unfold following
  split
  · rfl
  · split
    · split <;> rfl
    · rfl

theorem threshold_following {codec reader : FrameCodec} (payload : Bytes)
    (same : reader.threshold = codec.threshold) :
    (reader.following payload).threshold = (codec.following payload).threshold := by
  unfold following
  split
  · exact same
  · split
    · split
      · rfl
      · exact same
    · exact same

theorem following_of_head {codec : FrameCodec} {payload : Bytes}
    (plain : payload.head? ≠ some compressionOpcode) : codec.following payload = codec := by
  cases payload with
  | nil => rfl
  | cons opcode body =>
    have other : opcode ≠ compressionOpcode := by simpa using plain
    simp [following, other]

/-- The payload that announces a threshold. -/
def announcement (threshold : Int32) : Bytes :=
  compressionOpcode :: Wire.encode (VarInt.mk threshold)

theorem following_announcement (codec : FrameCodec) (threshold : Int32) :
    codec.following (announcement threshold) = codec.setCompression threshold := by
  have read := decode_varInt ⟨threshold⟩ []
  rw [List.append_nil] at read
  simp [following, announcement, read]

end FrameCodec

namespace Framing

theorem following_announcement (framing : Framing) (threshold : Int32) :
    framing.following (FrameCodec.announcement threshold) = framing.setCompression threshold := by
  rw [following, FrameCodec.following_announcement, setCompression]

/-- Announcements change the threshold only. -/
theorem frameAll_keeps (framing : Framing) (payloads : List Bytes) :
    (framing.frameAll payloads).2.maxLength = framing.maxLength ∧
      (framing.frameAll payloads).2.deflate = framing.deflate := by
  induction payloads generalizing framing with
  | nil => exact ⟨rfl, rfl⟩
  | cons payload payloads ih =>
    obtain ⟨maxLength, deflate⟩ := ih (framing.following payload)
    exact ⟨maxLength.trans (FrameCodec.maxLength_following _ payload), deflate⟩

theorem frameAll_append (framing : Framing) (payloads more : List Bytes) :
    framing.frameAll (payloads ++ more) =
      let (frames, next) := framing.frameAll payloads
      let (others, last) := next.frameAll more
      (frames ++ others, last) := by
  induction payloads generalizing framing with
  | nil => rfl
  | cons payload payloads ih => simp only [List.cons_append, frameAll, ih]

theorem frameAll_plain (framing : Framing) {payloads : List Bytes}
    (plain : ∀ p ∈ payloads, p.head? ≠ some compressionOpcode) :
    framing.frameAll payloads = (payloads.map framing.encode, framing) := by
  induction payloads with
  | nil => rfl
  | cons payload payloads ih =>
    have same : framing.following payload = framing := by
      rw [following, FrameCodec.following_of_head (plain payload List.mem_cons_self)]
    rw [frameAll, same, ih fun p hp => plain p (List.mem_cons_of_mem _ hp)]
    rfl

end Framing

namespace FrameCodec

/-! ## Writer and reader -/

theorem readStream_nil (codec : FrameCodec) : codec.readStream [] = ([], codec, []) := by
  rw [readStream]
  split
  · rename_i found
    cases found
  · rfl

theorem readStream_of_frame {codec : FrameCodec} {stream payload rest : Bytes}
    (decoded : codec.decode stream = .frame payload rest) :
    codec.readStream stream =
      let (payloads, next, left) := (codec.following payload).readStream rest
      (payload :: payloads, next, left) := by
  rw [readStream]
  split
  · rename_i found
    obtain ⟨rfl, rfl⟩ := Decoded.frame.inj (found.symm.trans decoded)
    rfl
  · rename_i other
    exact absurd decoded (other _ _)

/-- A client that starts with the writer's threshold gets all payloads, and no byte is left over.
Both end with the same threshold. -/
theorem readStream_frameAll {framing : Framing} {reader : FrameCodec} {payloads : List Bytes}
    (undoes : Undoes framing.deflate) (same : reader.threshold = framing.threshold)
    (bodies : ∀ frame ∈ (framing.frameAll payloads).1, Fits reader.maxLength (bodyOf frame))
    (fit : ∀ payload ∈ payloads, Fits reader.maxLength payload) :
    reader.readStream (framing.frameAll payloads).1.flatten =
      (payloads, { reader with threshold := (framing.frameAll payloads).2.threshold }, []) := by
  induction payloads generalizing framing reader with
  | nil => simp [Framing.frameAll, readStream_nil, ← same]
  | cons payload payloads ih =>
    simp only [Framing.frameAll, List.forall_mem_cons, Framing.encode, bodyOf_encodeWith]
      at bodies fit ⊢
    have decoded := decode_encodeWith undoes
      ((framing.following payload).frameAll payloads).1.flatten same bodies.1 fit.1
    have undone : Undoes (framing.following payload).deflate := undoes
    have others := ih undone (threshold_following payload same)
      (by rw [maxLength_following]; exact bodies.2) (by rw [maxLength_following]; exact fit.2)
    rw [List.flatten_cons, readStream_of_frame decoded, others]
    simp

end FrameCodec

end VoxelServer
