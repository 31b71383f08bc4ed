import VoxelServer.Wire.Number
import VoxelServer.Zlib.Deflate
import VoxelServer.Zlib.Inflate

/-!
# Frames

A connection carries frames: a length, then that many bytes. Without compression these bytes are
the payload. With it they are the payload's own length and the payload compressed, or a zero and
the payload as it is when it is short.

* `FrameCodec.encode`: the frame of a payload, and `FrameCodec.encodeWith` for any compressor.
* `FrameCodec.decode`: what stands at the front of a buffer, a `FrameCodec.Decoded`.
* `Framing`: a codec with the compressor that it writes with.
-/

namespace VoxelServer

structure FrameCodec where
  /-- Payloads of at least this length are compressed, if there is a threshold. -/
  threshold : Option Nat
  /-- The longest frame and the longest payload that are accepted. -/
  maxLength : Nat
  deriving DecidableEq, Repr, Inhabited

namespace FrameCodec

def ofMaxLength (maxLength : Nat) : FrameCodec := ⟨none, maxLength⟩

/-- A negative threshold turns compression off. -/
def setCompression (codec : FrameCodec) (threshold : Int32) : FrameCodec :=
  { codec with threshold := if threshold < 0 then none else some threshold.toInt.toNat }

/-- A length as it stands before what it counts. -/
def lengthField (n : Nat) : Bytes := Wire.encode (VarInt.ofLength n)

/-- The frame of a payload, for any way to compress. -/
def encodeWith (deflate : Bytes → Bytes) (codec : FrameCodec) (payload : Bytes) : Bytes :=
  let length := payload.length
  match codec.threshold with
  | none => lengthField length ++ payload
  | some threshold =>
    if length < threshold || length == 0 then lengthField (length + 1) ++ 0 :: payload
    else
      let data := deflate payload
      lengthField ((VarInt.ofLength length).length + data.length) ++ lengthField length ++ data

def encode (codec : FrameCodec) (payload : Bytes) : Bytes := codec.encodeWith Zlib.deflate payload

/-- The front of a buffer as a frame. -/
inductive Decoded
  /-- More bytes are needed. -/
  | incomplete
  /-- A whole frame, and what follows it. -/
  | frame (payload rest : Bytes)
  /-- No frame, and what is left of the buffer. -/
  | invalid (error : CodecError) (rest : Bytes)
  deriving DecidableEq, Repr

/-- The payload inside a frame of a compressed connection. -/
def unpack (codec : FrameCodec) (threshold : Nat) (body : Bytes) : Except CodecError Bytes := do
  let (declared, data) ← (Wire.decode : Decoder VarInt) body
  let length := declared.value.toInt.toNat
  if declared.value == 0 then .ok data
  else if declared.value < 0 then .error (.negativeLength declared.value.toInt)
  else if length < threshold then .error (.compression (.belowThreshold length threshold))
  else if length > codec.maxLength then .error (.frameTooLarge length codec.maxLength)
  else
    match Zlib.inflate? (length + 1) data with
    | none => .error (.compression .badStream)
    | some payload =>
      if payload.length = length then .ok payload
      else .error (.compression (.lengthMismatch length payload.length))

/-- The payload inside a frame. -/
def open? (codec : FrameCodec) (body : Bytes) : Except CodecError Bytes :=
  match codec.threshold with
  | none => .ok body
  | some threshold => codec.unpack threshold body

/-- The first frame of a buffer. A faulty length leaves the buffer as it is, a faulty frame is
taken off it. -/
def decode (codec : FrameCodec) (buffer : Bytes) : Decoded :=
  match (Wire.decode : Decoder VarInt) buffer with
  | .error e => if e.isIncomplete then .incomplete else .invalid e buffer
  | .ok (declared, rest) =>
    let length := declared.value.toInt.toNat
    if declared.value < 0 then .invalid (.negativeLength declared.value.toInt) buffer
    else if length > codec.maxLength then .invalid (.frameTooLarge length codec.maxLength) buffer
    else
      let body := rest.take length
      if body.length < length then .incomplete
      else
        let rest := rest.drop length
        match codec.open? body with
        | .ok payload => .frame payload rest
        | .error e => .invalid e rest

theorem length_rest_of_decodeVarNumFrom {max seen left : Nat} {input : Bytes} {n : Nat}
    {rest : Bytes} (h : decodeVarNumFrom max seen left input = .ok (n, rest)) :
    rest.length < input.length := by
  induction left generalizing seen input n rest with
  | zero => simp [decodeVarNumFrom] at h
  | succ left ih =>
    cases input with
    | nil => simp [decodeVarNumFrom] at h
    | cons b input =>
      simp only [decodeVarNumFrom] at h
      split at h
      · simp only [Except.ok.injEq, Prod.mk.injEq] at h
        simp [h.2]
      · cases hrec : decodeVarNumFrom max (seen + 1) left input with
        | error e => simp [hrec, bind, Except.bind] at h
        | ok r =>
          simp only [hrec, bind, Except.bind, pure, Except.pure, Except.ok.injEq,
            Prod.mk.injEq] at h
          have := ih hrec
          simp only [List.length_cons, ← h.2]
          omega

theorem length_rest_of_varInt {input : Bytes} {v : VarInt} {rest : Bytes}
    (h : (Wire.decode : Decoder VarInt) input = .ok (v, rest)) : rest.length < input.length := by
  simp only [Wire.decode, bind, StateT.bind, Except.bind] at h
  split at h
  · simp at h
  · rename_i r hr
    have same : r.2 = rest := congrArg Prod.snd (Except.ok.inj h)
    rw [← same]
    exact length_rest_of_decodeVarNumFrom hr

/-- A frame takes at least one byte off the buffer. -/
theorem length_rest_of_frame {codec : FrameCodec} {buffer payload rest : Bytes}
    (h : codec.decode buffer = .frame payload rest) : rest.length < buffer.length := by
  unfold decode at h
  split at h
  · split at h <;> simp at h
  · rename_i declared tail hd
    have short := length_rest_of_varInt hd
    dsimp only at h
    split at h
    · simp at h
    split at h
    · simp at h
    split at h
    · simp at h
    split at h
    · simp only [Decoded.frame.injEq] at h
      rw [← h.2]
      simp only [List.length_drop]
      omega
    · simp at h

end FrameCodec

/-- How a connection writes and reads frames. No reader can tell compressors apart whose streams
decompress to the content, so any of them will do. -/
structure Framing extends FrameCodec where
  deflate : Bytes → Bytes := Zlib.deflate

namespace Framing

def ofMaxLength (maxLength : Nat) (deflate : Bytes → Bytes) : Framing :=
  ⟨.ofMaxLength maxLength, deflate⟩

def setCompression (framing : Framing) (threshold : Int32) : Framing :=
  { framing with toFrameCodec := framing.toFrameCodec.setCompression threshold }

def encode (framing : Framing) (payload : Bytes) : Bytes :=
  framing.encodeWith framing.deflate payload

end Framing

end VoxelServer
