import VoxelServer.Proofs.Frame.Stream
import VoxelServer.Proofs.Zlib.Stored

/-!
# Frames that are read back

* `FrameCodec.encodeWith_eq`: a frame is the length of its body and the body;
* `FrameCodec.decode_encodeWith`: a reader with the writer's threshold gets the payload back, and
  what follows the frame is left to it;
* `Framing.eq_of_encode_eq`: so frames tell their payloads apart.

All this holds for every compressor that the decompressor undoes.
-/

namespace VoxelServer

namespace FrameCodec

theorem length_lengthField (n : Nat) : (lengthField n).length = (VarInt.ofLength n).length :=
  (varNumLength_eq _).symm

/-- A length that fits 31 bits is neither negative nor another length. -/
theorem ofLength_nonneg {n : Nat} (h : n < 2147483648) : ¬ (VarInt.ofLength n).value < 0 := by
  rw [Int32.lt_iff_toInt_lt, toInt_ofLength h]
  simp

/-- A length that travels as 31 bits, and that a reader with this limit accepts. -/
structure Fits (max : Nat) (bytes : Bytes) : Prop where
  short : bytes.length < 2147483648
  accepted : bytes.length ≤ max

/-- Whether the decompressor undoes a compressor. -/
def Undoes (deflate : Bytes → Bytes) : Prop :=
  ∀ content, Zlib.inflate? (content.length + 1) (deflate content) = some content

theorem undoes_deflate : Undoes Zlib.deflate :=
  fun content => Zlib.inflate_deflate content (Nat.lt_succ_self content.length)

/-- What stands behind the length of a payload's frame. -/
def bodyWith (deflate : Bytes → Bytes) (codec : FrameCodec) (payload : Bytes) : Bytes :=
  match codec.threshold with
  | none => payload
  | some threshold =>
    if payload.length < threshold || payload.length == 0 then 0 :: payload
    else lengthField payload.length ++ deflate payload

/-- A frame is the length of its body and the body. -/
theorem encodeWith_eq (deflate : Bytes → Bytes) (codec : FrameCodec) (payload : Bytes) :
    codec.encodeWith deflate payload =
      lengthField (codec.bodyWith deflate payload).length ++ codec.bodyWith deflate payload := by
  unfold encodeWith bodyWith
  cases codec.threshold with
  | none => rfl
  | some threshold =>
    dsimp only
    split
    · rfl
    · rw [List.length_append, length_lengthField, List.append_assoc]

/-- What stands behind the length of a frame. -/
def bodyOf (frame : Bytes) : Bytes :=
  match (Wire.decode : Decoder VarInt) frame with
  | .ok (_, body) => body
  | .error _ => []

theorem decode_frameWith (deflate : Bytes → Bytes) (codec : FrameCodec) (payload : Bytes) :
    (Wire.decode : Decoder VarInt) (codec.encodeWith deflate payload) =
      .ok (VarInt.ofLength (codec.bodyWith deflate payload).length,
        codec.bodyWith deflate payload) := by
  rw [encodeWith_eq, lengthField, decode_varInt]

@[simp] theorem bodyOf_encodeWith (deflate : Bytes → Bytes) (codec : FrameCodec)
    (payload : Bytes) :
    bodyOf (codec.encodeWith deflate payload) = codec.bodyWith deflate payload := by
  rw [bodyOf, decode_frameWith]

variable {deflate : Bytes → Bytes} {codec reader : FrameCodec} {payload : Bytes}

/-- The body of a frame opens with the same threshold that closed it. -/
theorem open_bodyWith (undoes : Undoes deflate) (same : reader.threshold = codec.threshold)
    (fits : Fits reader.maxLength payload) :
    reader.open? (codec.bodyWith deflate payload) = .ok payload := by
  unfold open? bodyWith
  rw [same]
  cases codec.threshold with
  | none => rfl
  | some threshold =>
    dsimp only
    split
    · have zero : (Wire.decode : Decoder VarInt) (0 :: payload) = .ok (⟨0⟩, payload) := rfl
      simp [unpack, zero, bind, Except.bind]
    · rename_i long
      have declared := decode_varInt (VarInt.ofLength payload.length) (deflate payload)
      have value := toInt_ofLength fits.short
      have content := undoes payload
      simp only [Bool.or_eq_true, decide_eq_true_eq, beq_iff_eq, not_or] at long
      have present : ¬ (VarInt.ofLength payload.length).value = 0 := by
        intro zero
        rw [zero] at value
        exact long.2 (Int.ofNat_inj.mp value).symm
      simp [unpack, lengthField, declared, bind, Except.bind, present, ofLength_nonneg fits.short,
        value, long.1, Nat.not_lt.mpr fits.accepted, content]

/-- A reader with the writer's threshold gets the payload back, whatever compressed it. -/
theorem decode_encodeWith (undoes : Undoes deflate) (rest : Bytes)
    (same : reader.threshold = codec.threshold)
    (body : Fits reader.maxLength (codec.bodyWith deflate payload))
    (fits : Fits reader.maxLength payload) :
    reader.decode (codec.encodeWith deflate payload ++ rest) = .frame payload rest := by
  have header := decode_varInt (VarInt.ofLength (codec.bodyWith deflate payload).length)
    (codec.bodyWith deflate payload ++ rest)
  have value := toInt_ofLength body.short
  have opened := open_bodyWith undoes same fits
  rw [encodeWith_eq, List.append_assoc, decode, lengthField, header]
  simp [ofLength_nonneg body.short, value, Nat.not_lt.mpr body.accepted, opened]

end FrameCodec

/-- No two payloads have the same frame. -/
theorem Framing.eq_of_encode_eq {framing : Framing} {max : Nat} {payload other : Bytes}
    (undoes : FrameCodec.Undoes framing.deflate) (fits : FrameCodec.Fits max payload)
    (fits' : FrameCodec.Fits max other) (same : framing.encode payload = framing.encode other) :
    payload = other := by
  have bodies := congrArg FrameCodec.bodyOf same
  rw [encode, encode, FrameCodec.bodyOf_encodeWith, FrameCodec.bodyOf_encodeWith] at bodies
  have opened : FrameCodec.open? ⟨framing.threshold, max⟩
      (framing.bodyWith framing.deflate payload) = .ok payload :=
    FrameCodec.open_bodyWith undoes rfl fits
  have opened' : FrameCodec.open? ⟨framing.threshold, max⟩
      (framing.bodyWith framing.deflate other) = .ok other :=
    FrameCodec.open_bodyWith undoes rfl fits'
  rw [bodies, opened'] at opened
  exact (Except.ok.inj opened).symm

end VoxelServer
