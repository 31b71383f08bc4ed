import VoxelServer.Frame
import VoxelServer.Proofs.Wire.VarNum

/-!
# Frames of a growing buffer

A buffer grows at its end while frames are taken off its front. What the front of it is does not
depend on the bytes behind, once it is anything at all:

* `FrameCodec.decode_append`: more bytes behind a buffer leave the answer as it is, unless the
  answer was that bytes are missing.
-/

namespace VoxelServer.FrameCodec

/-- The same answer with more bytes behind what is left. -/
def Decoded.before (more : Bytes) : Decoded → Decoded
  | incomplete => incomplete
  | frame payload rest => frame payload (rest ++ more)
  | invalid e rest => invalid e (rest ++ more)

theorem decode_append {codec : FrameCodec} {buffer : Bytes} (more : Bytes)
    (h : codec.decode buffer ≠ .incomplete) :
    codec.decode (buffer ++ more) = (codec.decode buffer).before more := by
  unfold decode at h ⊢
  cases header : (Wire.decode : Decoder VarInt) buffer with
  | error e =>
    simp only [header] at h
    have final : e.isIncomplete = false := by
      cases hi : e.isIncomplete
      · rfl
      · simp [hi] at h
    simp [varInt_selfDelimiting.error header final more, final, Decoded.before]
  | ok r =>
    obtain ⟨declared, rest⟩ := r
    simp only [header] at h
    simp only [(varInt_selfDelimiting.ok header).2 more]
    split
    · rfl
    split
    · rfl
    rename_i notNegative small
    simp only [notNegative, small, if_false] at h
    split at h
    · exact absurd rfl h
    rename_i whole
    have enough : declared.value.toInt.toNat ≤ rest.length := by
      simp only [List.length_take] at whole
      omega
    have body : (rest ++ more).take _ = _ := List.take_append_of_le_length enough
    have left : (rest ++ more).drop _ = _ := List.drop_append_of_le_length enough
    simp only [body, left, whole, if_false]
    cases codec.open? (rest.take declared.value.toInt.toNat) <;> rfl

end VoxelServer.FrameCodec
