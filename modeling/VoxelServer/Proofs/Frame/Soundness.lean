import VoxelServer.Frame
import VoxelServer.Proofs.Wire.VarNum
import VoxelServer.Proofs.Zlib.Limits

/-!
# Frames of a hostile client

The bytes of a buffer may be anything. What is made of them is bounded by the limit of the codec,
and a frame is taken off whole or not at all:

* `FrameCodec.Front`: a whole frame at the front of a buffer;
* `FrameCodec.Holds`: the payload that is in a body;
* `FrameCodec.LengthFault`: what may be wrong with the length of a frame;
* `FrameCodec.Sound`, `FrameCodec.decode_sound`: what every answer about a buffer means.
-/

namespace VoxelServer.FrameCodec

/-- A whole frame at the front of a buffer: a field that says how long the body is, whatever comes
behind it, and a body of that length. -/
structure Front (codec : FrameCodec) (buffer field body rest : Bytes) : Prop where
  parts : buffer = field ++ body ++ rest
  present : 0 < field.length
  short : field.length ≤ 5
  announced : ∃ declared : VarInt, declared.value.toInt = body.length ∧
    ∀ more, (Wire.decode : Decoder VarInt) (field ++ more) = .ok (declared, more)
  accepted : body.length ≤ codec.maxLength

/-- The payload that is in a body. -/
inductive Holds (codec : FrameCodec) (body : Bytes) : Bytes → Prop
  | plain (off : codec.threshold = none) : Holds codec body body
  /-- A zero, and the payload as it is. -/
  | asIs {threshold : Nat} {payload : Bytes} (on : codec.threshold = some threshold)
      (zero : (Wire.decode : Decoder VarInt) body = .ok (⟨0⟩, payload)) : Holds codec body payload
  /-- The length of the payload, and a stream that holds it. -/
  | packed {threshold : Nat} {declared : VarInt} {data payload : Bytes}
      (on : codec.threshold = some threshold)
      (read : (Wire.decode : Decoder VarInt) body = .ok (declared, data))
      (length : declared.value.toInt = payload.length) (nonempty : payload ≠ [])
      (atLeast : threshold ≤ payload.length) (atMost : payload.length ≤ codec.maxLength)
      (content : Zlib.Inflates data payload) : Holds codec body payload

/-- What may be wrong with the length of a frame. -/
inductive LengthFault (codec : FrameCodec) (buffer : Bytes) : CodecError → Prop
  | malformed {e : CodecError} (refused : (Wire.decode : Decoder VarInt) buffer = .error e)
      (final : e.isIncomplete = false) : LengthFault codec buffer e
  | negative {declared : VarInt} {rest : Bytes}
      (read : (Wire.decode : Decoder VarInt) buffer = .ok (declared, rest))
      (below : declared.value.toInt < 0) :
      LengthFault codec buffer (.negativeLength declared.value.toInt)
  | tooLarge {declared : VarInt} {rest : Bytes} {length : Nat}
      (read : (Wire.decode : Decoder VarInt) buffer = .ok (declared, rest))
      (value : declared.value.toInt = length) (above : codec.maxLength < length) :
      LengthFault codec buffer (.frameTooLarge length codec.maxLength)

/-- What an answer about a buffer means. -/
def Sound (codec : FrameCodec) (buffer : Bytes) : Decoded → Prop
  | .incomplete => buffer.length < codec.maxLength + 5
  | .frame payload rest => payload.length ≤ codec.maxLength ∧
    ∃ field body, codec.Front buffer field body rest ∧ codec.Holds body payload
  | .invalid e rest => (rest = buffer ∧ codec.LengthFault buffer e) ∨
    ∃ field body, codec.Front buffer field body rest ∧ codec.open? body = .error e

variable {codec : FrameCodec} {buffer body payload rest : Bytes}

/-! ## Bodies -/

/-- A number that is not negative is the length it stands for. -/
theorem toInt_of_nonneg {n : Int32} (h : ¬ n < 0) : n.toInt = n.toInt.toNat := by
  rw [Int32.lt_iff_toInt_lt] at h
  have zero : (0 : Int32).toInt = 0 := rfl
  omega

/-- A body that opens holds what it is opened to. -/
theorem holds_of_open (opened : codec.open? body = .ok payload) : codec.Holds body payload := by
  unfold open? at opened
  cases on : codec.threshold with
  | none =>
    rw [on] at opened
    cases opened
    exact .plain on
  | some threshold =>
    rw [on] at opened
    dsimp only [unpack] at opened
    cases read : (Wire.decode : Decoder VarInt) body with
    | error e =>
      rw [read] at opened
      cases opened
    | ok r =>
      obtain ⟨declared, data⟩ := r
      simp only [read, bind, Except.bind] at opened
      split at opened
      · rename_i zero
        cases opened
        obtain ⟨value⟩ := declared
        obtain rfl : value = 0 := by simpa using zero
        exact .asIs on read
      rename_i nonzero
      split at opened
      · cases opened
      rename_i nonneg
      split at opened
      · cases opened
      rename_i atLeast
      split at opened
      · cases opened
      rename_i atMost
      split at opened
      · cases opened
      rename_i content inflated
      split at opened
      · rename_i length
        cases opened
        have value := toInt_of_nonneg nonneg
        rw [← length] at value atLeast atMost
        refine .packed on read value ?_ (Nat.le_of_not_lt atLeast) (Nat.le_of_not_lt atMost) ?_
        · rintro rfl
          refine nonzero (beq_iff_eq.mpr (Int32.toInt_inj.mp ?_))
          exact value
        · refine (Zlib.inflates_of_short inflated).2 ?_
          omega
      · cases opened

theorem Holds.length_le (h : codec.Holds body payload) (accepted : body.length ≤ codec.maxLength) :
    payload.length ≤ codec.maxLength := by
  cases h with
  | plain => exact accepted
  | asIs _ zero =>
    have := length_rest_of_varInt zero
    omega
  | packed _ _ _ _ _ atMost => exact atMost

/-! ## Buffers -/

/-- A body that is all there stands behind the field that announces it. -/
theorem front_of_varInt (codec : FrameCodec) {buffer : Bytes} {declared : VarInt} {rest : Bytes}
    (read : (Wire.decode : Decoder VarInt) buffer = .ok (declared, rest))
    (nonneg : ¬ declared.value < 0) (accepted : declared.value.toInt.toNat ≤ codec.maxLength)
    (whole : declared.value.toInt.toNat ≤ rest.length) :
    ∃ field, codec.Front buffer field (rest.take declared.value.toInt.toNat)
      (rest.drop declared.value.toInt.toNat) := by
  obtain ⟨field, parts, present, short, same⟩ := VoxelServer.front_of_varInt read
  have length := List.length_take_of_le whole
  refine ⟨field, ?_, present, short, ⟨declared, ?_, same⟩, ?_⟩
  · rw [List.append_assoc, List.take_append_drop]
    exact parts
  · rw [length]
    exact toInt_of_nonneg nonneg
  · rw [length]
    exact accepted

theorem decode_sound (codec : FrameCodec) (buffer : Bytes) :
    codec.Sound buffer (codec.decode buffer) := by
  unfold decode
  cases read : (Wire.decode : Decoder VarInt) buffer with
  | error e =>
    dsimp only
    split
    · rename_i missing
      have := length_of_varInt_incomplete read missing
      show buffer.length < codec.maxLength + 5
      omega
    · rename_i final
      exact .inl ⟨rfl, .malformed read (by simpa using final)⟩
  | ok r =>
    obtain ⟨declared, tail⟩ := r
    dsimp only
    split
    · rename_i negative
      rw [Int32.lt_iff_toInt_lt] at negative
      exact .inl ⟨rfl, .negative read negative⟩
    rename_i nonneg
    split
    · rename_i above
      exact .inl ⟨rfl, .tooLarge read (toInt_of_nonneg nonneg) above⟩
    rename_i accepted
    split
    · rename_i missing
      obtain ⟨field, parts, -, short, -⟩ := VoxelServer.front_of_varInt read
      have length := congrArg List.length parts
      rw [List.length_append] at length
      rw [List.length_take] at missing
      show buffer.length < codec.maxLength + 5
      omega
    rename_i whole
    rw [List.length_take] at whole
    obtain ⟨field, front⟩ := codec.front_of_varInt read nonneg (by omega) (by omega)
    split
    · rename_i payload opened
      have holds := holds_of_open opened
      exact ⟨holds.length_le front.accepted, field, _, front, holds⟩
    · rename_i e refused
      exact .inr ⟨field, _, front, refused⟩

/-! ## Frames without compression -/

/-- A whole frame is taken off as it stands. -/
theorem Front.decode_of_off {field : Bytes} (front : codec.Front buffer field body rest)
    (off : codec.threshold = none) : codec.decode buffer = .frame body rest := by
  obtain ⟨declared, length, read⟩ := front.announced
  have header : (Wire.decode : Decoder VarInt) buffer = .ok (declared, body ++ rest) := by
    rw [front.parts, List.append_assoc]
    exact read (body ++ rest)
  have nonneg : ¬ declared.value < 0 := by
    rw [Int32.lt_iff_toInt_lt, length]
    exact Int.not_lt.mpr (Int.natCast_nonneg _)
  have accepted := Nat.not_lt.mpr front.accepted
  simp only [decode, header, if_neg nonneg, length, Int.toNat_natCast, gt_iff_lt, if_neg accepted,
    List.take_left', List.drop_left', Nat.lt_irrefl, if_false, open?, off]

/-- A length with a fault leaves the buffer as it is. -/
theorem LengthFault.decode {e : CodecError} (fault : codec.LengthFault buffer e) :
    codec.decode buffer = .invalid e buffer := by
  cases fault with
  | malformed refused final => simp [FrameCodec.decode, refused, final]
  | @negative declared _ read below =>
    have negative : declared.value < 0 := by
      rw [Int32.lt_iff_toInt_lt]
      exact below
    simp only [FrameCodec.decode, read, if_pos negative]
  | @tooLarge declared _ length read value above =>
    have nonneg : ¬ declared.value < 0 := by
      rw [Int32.lt_iff_toInt_lt, value]
      exact Int.not_lt.mpr (Int.natCast_nonneg _)
    simp only [FrameCodec.decode, read, if_neg nonneg, value, Int.toNat_natCast, gt_iff_lt,
      if_pos above]

end VoxelServer.FrameCodec
